import RunQuery.Proofs.Predicate.Visits

/-!
Editors of comparisons. They look the node at a path up and put a changed comparison in its place. A comparison is never
lost on the way: the levels above it keep a child, so that something is left of the tree and the levels of a collapsed
tree stay as they are. Main statements: the editors succeed exactly on comparisons, and exchange the one leaf at the
path; a path without a node they call invalid, also where an edit would name the unknown kind in its way.
-/
namespace RunQuery.Predicate

/-- The levels of a predicate, whatever its leaves say. -/
inductive Shape where
  | and (below : List Shape)
  | or (below : List Shape)
  | not (below : Shape)
  | comparison
  | unknown

mutual

def shape : Predicate → Shape
  | .and children => .and (shapes children)
  | .or children => .or (shapes children)
  | .not child => .not (shape child)
  | .compare _ => .comparison
  | .unknown _ _ => .unknown

def shapes : List Predicate → List Shape
  | [] => []
  | child :: rest => shape child :: shapes rest

end

theorem shapes_eq_map (children : List Predicate) : shapes children = children.map shape := by
  induction children with
  | nil => rfl
  | cons child rest ih => rw [shapes, ih, List.map_cons]

section Substitution

variable {new root node : Predicate} {path : Path}

/-- A node of the same shape changes no level. -/
theorem shape_substitute (found : root.at? path = some node) (alike : new.shape = node.shape) :
    (substitute new path root).shape = root.shape := by
  induction path, root, found using at?_induction with
  | here => exact alike
  | and index rest children child inside _ ih =>
    rw [substitute, shape, shape, shapes_eq_map, shapes_eq_map, map_modify_of_eq shape inside ih]
  | or index rest children child inside _ ih =>
    rw [substitute, shape, shape, shapes_eq_map, shapes_eq_map, map_modify_of_eq shape inside ih]
  | not rest child _ ih => rw [substitute, shape, shape, ih]

theorem AllCollapsed.modify {children : List Predicate} (all : AllCollapsed children) {index : Nat} {child : Predicate}
    (inside : children[index]? = some child) {change : Predicate → Predicate} (whole : (change child).Collapsed) :
    AllCollapsed (children.modify index change) := by
  rw [allCollapsed_iff]
  intro p member
  obtain ⟨i, there⟩ := List.getElem?_of_mem member
  rw [List.getElem?_modify] at there
  by_cases own : index = i
  · subst own
    rw [inside] at there
    simp only [if_pos, Option.map_eq_map, Option.map_some, Option.some.injEq] at there
    exact there ▸ whole
  · simp only [if_neg own, Option.map_eq_map, Option.map_id_fun', id] at there
    exact all.child there

/-- No level collapses when a collapsed node takes the place of another. -/
theorem Collapsed.substitute (collapsed : root.Collapsed) (whole : new.Collapsed) (found : root.at? path = some node) :
    (substitute new path root).Collapsed := by
  induction path, root, found using at?_induction with
  | here => cases node <;> exact whole
  | and index rest children child inside _ ih =>
    exact ⟨(List.length_modify ..).symm ▸ collapsed.1, collapsed.2.modify inside (ih (collapsed.2.child inside))⟩
  | or index rest children child inside _ ih =>
    exact ⟨(List.length_modify ..).symm ▸ collapsed.1, collapsed.2.modify inside (ih (collapsed.2.child inside))⟩
  | not rest child _ ih => exact ih collapsed

end Substitution

/-- A predicate with the comparison at a path exchanged. An edit that puts the new one there leaves this tree, and not
nothing; of the leaves, in the order of a walk, that at the path is another and the rest are what they were; and if the
predicate was collapsed, all its levels stay and the new comparison is found at the same path. -/
structure Exchanged (root : Predicate) (path : Path) (old new : Comparison) (after : Predicate) : Prop where
  replaced : root.replaceAt path (some (.compare new)) = .ok (some after)
  leaves : ∃ before behind, root.walk = before ++ (path, .compare old) :: behind ∧
    (∀ visit ∈ before ++ behind, ¬ path <+: visit.1) ∧
    root.leaves = leavesAmong before ++ .compare old :: leavesAmong behind ∧
    after.leaves = leavesAmong before ++ .compare new :: leavesAmong behind
  shape : root.Collapsed → after.shape = root.shape
  found : root.Collapsed → after.at? path = some (.compare new)

section Edit

variable {root : Predicate} {path : Path} {old : Comparison}

/-- A tree is left when a comparison is put in, since a leaf of it is. -/
theorem replaceAt_compare (found : root.at? path = some (.compare old)) (new : Comparison) :
    ∃ after, root.replaceAt path (some (.compare new)) = .ok (some after) ∧
      after.leaves = leavesBefore path root ++ .compare new :: leavesAfter path root := by
  obtain ⟨result, done⟩ := replaceIn_of_found path (some (.compare new)) found
  have leaves : leavesOf result.toList = leavesBefore path root ++ .compare new :: leavesAfter path root := by
    rw [leaves_replaceIn found done]
    simp [Predicate.leaves]
  cases result with
  | none =>
    -- a tree that is gone has no leaves, and this one has the new comparison
    simp [leavesOf] at leaves
  | some after =>
    rw [Option.toList_some, leavesOf_singleton] at leaves
    exact ⟨after, done, leaves⟩

theorem replaceAt_compare_collapsed (collapsed : root.Collapsed) (found : root.at? path = some (.compare old))
    (new : Comparison) :
    root.replaceAt path (some (.compare new)) = .ok (some (substitute (.compare new) path root)) := by
  have whole : (Predicate.compare new).Collapsed := trivial
  rw [replaceAt_eq collapsed found, Option.getD_some, (collapsed.substitute whole found).normalized?]

theorem exists_exchanged (found : root.at? path = some (.compare old)) (new : Comparison) :
    ∃ after, root.Exchanged path old new after := by
  obtain ⟨after, replaced, leaves⟩ := replaceAt_compare found new
  obtain ⟨before, behind, cut, first, last, apart⟩ := walkFrom_cut [] found
  have substituted (collapsed : root.Collapsed) : after = substitute (.compare new) path root := by
    rw [replaceAt_compare_collapsed collapsed found new] at replaced
    exact (Option.some.inj (Except.ok.inj replaced)).symm
  refine ⟨after, replaced, ⟨before, behind, ?_, apart, ?_, ?_⟩, fun collapsed => ?_, fun collapsed => ?_⟩
  · rw [walk, cut, List.append_assoc]
    rfl
  · rw [first, last, leaves_at? found, List.append_assoc]
    rfl
  · rw [first, last, leaves]
  · rw [substituted collapsed]
    exact shape_substitute found rfl
  · rw [substituted collapsed]
    exact at?_substitute _ found

theorem editComparison_of_found (found : root.at? path = some (.compare old)) (edit : Comparison → Comparison) :
    ∃ after, root.editComparison path edit = .ok after ∧ root.Exchanged path old (edit old) after := by
  obtain ⟨after, exchanged⟩ := exists_exchanged found (edit old)
  refine ⟨after, ?_, exchanged⟩
  simp only [editComparison, found, exchanged.replaced]

theorem editComparison_eq_error_iff {edit : Comparison → Comparison} {error : EditError} :
    root.editComparison path edit = .error error ↔
      root.at? path = none ∧ error = .invalidPath path ∨
      (∃ node, root.at? path = some node ∧ ∀ c, node ≠ .compare c) ∧ error = .notAComparison path := by
  cases found : root.at? path with
  | none => simp [editComparison, found, eq_comm]
  | some node =>
    cases node with
    | compare c =>
      obtain ⟨after, done, -⟩ := editComparison_of_found found edit
      simp [done]
    | _ => simp [editComparison, found, eq_comm]

theorem editComparison_eq_ok {edit : Comparison → Comparison} {after : Predicate}
    (done : root.editComparison path edit = .ok after) :
    ∃ c, root.at? path = some (.compare c) ∧ root.Exchanged path c (edit c) after := by
  cases found : root.at? path with
  | none => simp [editComparison, found] at done
  | some node =>
    cases node with
    | compare c =>
      obtain ⟨left, again, exchanged⟩ := editComparison_of_found found edit
      obtain rfl : left = after := Except.ok.inj (again.symm.trans done)
      exact ⟨c, rfl, exchanged⟩
    | _ => simp [editComparison, found] at done

theorem editComparison_succeeds_iff {edit : Comparison → Comparison} :
    (∃ after, root.editComparison path edit = .ok after) ↔ ∃ c, root.at? path = some (.compare c) := by
  constructor
  · rintro ⟨after, done⟩
    obtain ⟨c, found, -⟩ := editComparison_eq_ok done
    exact ⟨c, found⟩
  · rintro ⟨c, found⟩
    obtain ⟨after, done, -⟩ := editComparison_of_found found edit
    exact ⟨after, done⟩

end Edit

/-- The operation and the operand of a comparison can be changed in every predicate: the editors succeed exactly where
the path leads to a comparison, since something is always left of the tree. Then the leaf at the path says what it said,
but for the operation or the operand, the other leaves are as they were and in their order, and no level of a collapsed
tree is lost. -/
theorem comparison_edit_exchanges_leaf (root : Predicate) (path : Path) :
    (∀ operation, ((∃ after, root.setOperation path operation = .ok after) ↔ ∃ c, root.at? path = some (.compare c)) ∧
      ∀ after, root.setOperation path operation = .ok after →
        ∃ c, root.at? path = some (.compare c) ∧ root.Exchanged path c ⟨c.location, operation, c.operand⟩ after) ∧
    (∀ operand, ((∃ after, root.setOperand path operand = .ok after) ↔ ∃ c, root.at? path = some (.compare c)) ∧
      ∀ after, root.setOperand path operand = .ok after →
        ∃ c, root.at? path = some (.compare c) ∧ root.Exchanged path c ⟨c.location, c.operation, operand⟩ after) := by
  constructor
  · intro operation
    exact ⟨editComparison_succeeds_iff, fun after done => editComparison_eq_ok done⟩
  · intro operand
    exact ⟨editComparison_succeeds_iff, fun after done => editComparison_eq_ok done⟩

/-- The second of two equal comparisons gets another operand, below a negation of a collapsed tree. -/
theorem comparison_edit_exchanges_leaf_equal_sibling :
    let same : Comparison := ⟨"status", .eq, .bind "s"⟩
    let root : Predicate := .and [.unknown "near" .null, .not (.or [.compare same, .compare same])]
    let after : Predicate :=
      .and [.unknown "near" .null, .not (.or [.compare same, .compare ⟨"status", .eq, .field "was"⟩])]
    root.setOperand [1, 0, 1] (.field "was") = .ok after ∧ root.Collapsed ∧ after.shape = root.shape ∧
    root.Exchanged [1, 0, 1] same ⟨"status", .eq, .field "was"⟩ after := by
  intro same root after
  have done : root.setOperand [1, 0, 1] (.field "was") = .ok after := rfl
  have collapsed : root.Collapsed := ⟨by decide, trivial, ⟨by decide, trivial, trivial, trivial⟩, trivial⟩
  obtain ⟨c, found, exchanged⟩ := ((comparison_edit_exchanges_leaf root [1, 0, 1]).2 (.field "was")).2 after done
  cases found
  exact ⟨done, collapsed, exchanged.shape collapsed, exchanged⟩

/-- A level of one child is lost with the edit, and the comparison is found at another path. -/
example :
    let low : Comparison := ⟨"rank", .gt, .bind "low"⟩
    (Predicate.or [.and [.compare low]]).setOperation [0, 0] .gte = .ok (.compare { low with operation := .gte }) := rfl

/-- An edit and the editors of comparisons refuse a path with one error. -/
def RefusedAlike (root : Predicate) (path : Path) : Prop :=
  ∀ replacement operation operand, ∃ error, root.replaceAt path replacement = .error error ∧
    root.setOperation path operation = .error error ∧ root.setOperand path operand = .error error

theorem refusedAlike_iff {root : Predicate} {path : Path} :
    root.RefusedAlike path ↔ root.at? path = none ∧ ∀ kind, ¬ root.Obstructed path kind := by
  constructor
  · intro alike
    obtain ⟨error, refused, edited, -⟩ := alike none .eq (.bind "")
    obtain ⟨node, breaks, rfl⟩ := replaceAt_eq_error_iff.mp refused
    refine ⟨breaks.gone, fun kind obstructed => ?_⟩
    obtain ⟨raw, wall⟩ := obstructed_iff.mp obstructed
    -- the edit names the kind, and no editor of comparisons has such an error
    rw [breaks.refusal_eq wall path] at edited
    simp [setOperation, editComparison_eq_error_iff, refusal] at edited
  · rintro ⟨gone, clear⟩ replacement operation operand
    obtain ⟨node, breaks⟩ := breaksOff_of_gone gone
    have invalid := refusal_of_unobstructed breaks clear path
    refine ⟨.invalidPath path, replaceAt_eq_error_iff.mpr ⟨node, breaks, invalid⟩, ?_, ?_⟩
    · exact editComparison_eq_error_iff.mpr (.inl ⟨gone, rfl⟩)
    · exact editComparison_eq_error_iff.mpr (.inl ⟨gone, rfl⟩)

/-- When the editors of comparisons fail, and with which error. A path without a node is invalid, whatever it breaks off
at; a node that is no comparison is told apart. So an edit refuses such a path with the same error only if it does not
run into a node of an unknown kind. -/
theorem comparison_editors_refuse_iff (root : Predicate) (path : Path) :
    (∀ operation error, root.setOperation path operation = .error error ↔
      root.at? path = none ∧ error = .invalidPath path ∨
      (∃ node, root.at? path = some node ∧ ∀ c, node ≠ .compare c) ∧ error = .notAComparison path) ∧
    (∀ operand error, root.setOperand path operand = .error error ↔
      root.at? path = none ∧ error = .invalidPath path ∨
      (∃ node, root.at? path = some node ∧ ∀ c, node ≠ .compare c) ∧ error = .notAComparison path) ∧
    (root.RefusedAlike path ↔ root.at? path = none ∧ ∀ kind, ¬ root.Obstructed path kind) :=
  ⟨fun _ _ => editComparison_eq_error_iff, fun _ _ => editComparison_eq_error_iff, refusedAlike_iff⟩

/-- A path into a node of an unknown kind: an edit names the kind, and the editors of comparisons do not. -/
theorem unknown_kind_not_told :
    ¬ ∀ (root : Predicate) (path : Path), root.at? path = none → root.RefusedAlike path := by
  intro alike
  obtain ⟨error, refused, edited, -⟩ := alike (.and [.unknown "geo" .null, .compare ⟨"a", .eq, .bind "x"⟩]) [0, 0] rfl
    none .lt (.bind "x")
  cases refused
  cases edited

end RunQuery.Predicate
