import RunQuery.Proofs.Predicate.Meaning

/-!
What a walk over a predicate meets, node by node. The leaves are the nodes without a level below them, in the order of
the walk; the visits to a node and to all that is below it stand together. So the normal form, which moves no leaf,
keeps all that is read off a walk, and an edit takes exactly the leaves of one stretch of the walk away.
-/
namespace RunQuery.Predicate

/-- The nodes of a predicate in the order of a walk. -/
def nodes (p : Predicate) : List Predicate := p.walk.map Prod.snd

def isLeaf : Predicate → Bool
  | .compare _ => true
  | .unknown _ _ => true
  | _ => false

/-- The leaves among some visits. -/
def leavesAmong (visits : List (Path × Predicate)) : List Predicate := (visits.map Prod.snd).filter isLeaf

@[simp] theorem leavesAmong_nil : leavesAmong [] = [] := rfl

@[simp] theorem leavesAmong_append (first second : List (Path × Predicate)) :
    leavesAmong (first ++ second) = leavesAmong first ++ leavesAmong second := by
  simp [leavesAmong]

theorem walkFrom_eq (path : Path) (p : Predicate) : walkFrom path p = (path, p) :: walkChildren path 0 p.children := by
  cases p <;> simp [walkFrom, walkChildren, children]

theorem walkChildren_append (path : Path) (index : Nat) (first second : List Predicate) :
    walkChildren path index (first ++ second) =
      walkChildren path index first ++ walkChildren path (index + first.length) second := by
  induction first generalizing index with
  | nil => rfl
  | cons child rest ih =>
    rw [List.cons_append, walkChildren, walkChildren, ih, List.append_assoc, List.length_cons, Nat.add_right_comm]
    rfl

mutual

theorem leavesAmong_walkFrom (path : Path) (p : Predicate) : leavesAmong (walkFrom path p) = p.leaves := by
  match p with
  | .and children => exact leavesAmong_walkChildren path 0 children
  | .or children => exact leavesAmong_walkChildren path 0 children
  | .not child => exact leavesAmong_walkFrom (path ++ [0]) child
  | .compare _ => rfl
  | .unknown _ _ => rfl

theorem leavesAmong_walkChildren (path : Path) (index : Nat) (children : List Predicate) :
    leavesAmong (walkChildren path index children) = leavesOf children := by
  match children with
  | [] => rfl
  | child :: rest =>
    rw [walkChildren, leavesAmong_append, leavesAmong_walkFrom (path ++ [index]) child,
      leavesAmong_walkChildren path (index + 1) rest]
    rfl

end

theorem leaves_eq_filter_nodes (p : Predicate) : p.leaves = p.nodes.filter isLeaf :=
  (leavesAmong_walkFrom [] p).symm

theorem filter_isUnknown_nodes (p : Predicate) : p.nodes.filter isUnknown = p.leaves.filter isUnknown := by
  rw [leaves_eq_filter_nodes, List.filter_filter]
  refine List.filter_congr fun node _ => ?_
  cases node <;> rfl

section Visits

variable {visit : Path × Predicate}

mutual

theorem prefix_of_mem_walkFrom (path : Path) (p : Predicate) (met : visit ∈ walkFrom path p) : path <+: visit.1 := by
  match p, List.mem_cons.mp (walkFrom_eq path p ▸ met) with
  | p, .inl here =>
    subst here
    exact List.prefix_refl path
  | .and children, .inr below =>
    obtain ⟨i, -, -, under⟩ := prefix_of_mem_walkChildren path 0 children below
    exact (List.prefix_append path [i]).trans under
  | .or children, .inr below =>
    obtain ⟨i, -, -, under⟩ := prefix_of_mem_walkChildren path 0 children below
    exact (List.prefix_append path [i]).trans under
  | .not child, .inr below =>
    have under := prefix_of_mem_walkFrom (path ++ [0]) child (by simpa [walkChildren, children] using below)
    exact (List.prefix_append path [0]).trans under

/-- The visits below a level have the index of a child behind the path of the level. -/
theorem prefix_of_mem_walkChildren (path : Path) (index : Nat) (children : List Predicate)
    (met : visit ∈ walkChildren path index children) :
    ∃ i, index ≤ i ∧ i < index + children.length ∧ path ++ [i] <+: visit.1 := by
  match children with
  | child :: rest =>
    rcases List.mem_append.mp met with first | others
    · exact ⟨index, Nat.le_refl _, by simp, prefix_of_mem_walkFrom _ child first⟩
    · obtain ⟨i, low, high, below⟩ := prefix_of_mem_walkChildren path (index + 1) rest others
      rw [List.length_cons]
      exact ⟨i, by omega, by omega, below⟩

end

/-- One step from a path leads to one child only. -/
theorem step_eq {path rest other : Path} {i j : Nat} (first : path ++ [i] <+: other)
    (second : path ++ j :: rest <+: other) : i = j := by
  obtain ⟨below, rfl⟩ := first
  rw [List.append_assoc, List.prefix_append_right_inj] at second
  exact (List.cons_prefix_cons.mp second).1.symm

/-- Where a visit below some children lies under a path, the path goes through one of them. -/
theorem index_of_mem_walkChildren {path rest : Path} {index j : Nat} {children : List Predicate}
    (met : visit ∈ walkChildren path index children) (under : path ++ j :: rest <+: visit.1) :
    index ≤ j ∧ j < index + children.length := by
  obtain ⟨i, low, high, below⟩ := prefix_of_mem_walkChildren path index children met
  obtain rfl := step_eq below under
  exact ⟨low, high⟩

end Visits

section Cut

variable {root node : Predicate} {path : Path}

theorem isLeaf_of_child {index : Nat} {child : Predicate} (here : root.children[index]? = some child) :
    root.isLeaf = false := by
  cases root with
  | compare c => cases here
  | unknown kind raw => cases here
  | _ => rfl

/-- The visits to a level: the level itself, and the children before one of them, that child, and those after it. -/
theorem walkFrom_of_child (above : Path) {index : Nat} {child : Predicate}
    (here : root.children[index]? = some child) :
    walkFrom above root = (above, root) :: walkChildren above 0 (root.children.take index) ++
      walkFrom (above ++ [index]) child ++ walkChildren above (index + 1) (root.children.drop (index + 1)) := by
  obtain ⟨inside, rfl⟩ := List.getElem?_eq_some_iff.mp here
  have cut := walkChildren_append above 0 (root.children.take index) (root.children.drop index)
  rw [List.take_append_drop, List.drop_eq_getElem_cons inside, walkChildren, List.length_take,
    Nat.min_eq_left (Nat.le_of_lt inside), Nat.zero_add] at cut
  rw [walkFrom_eq, cut, List.cons_append, List.cons_append, List.append_assoc]

/-- A path cuts the walk in three: what is visited before the node at the path, that node with all that is below it,
and what is visited after it. -/
theorem walkFrom_cut (above : Path) (found : root.at? path = some node) :
    ∃ before after, walkFrom above root = before ++ walkFrom (above ++ path) node ++ after ∧
      leavesAmong before = leavesBefore path root ∧ leavesAmong after = leavesAfter path root ∧
      ∀ visit ∈ before ++ after, ¬ above ++ path <+: visit.1 := by
  induction path generalizing root above with
  | nil =>
    cases found
    exact ⟨[], [], by simp, rfl, rfl, nofun⟩
  | cons index rest ih =>
    obtain ⟨child, here, below⟩ := at?_cons.mp found
    obtain ⟨before, after, cut, leavesFirst, leavesLast, apart⟩ := ih (above ++ [index]) below
    rw [← List.append_cons] at cut apart
    refine ⟨(above, root) :: walkChildren above 0 (root.children.take index) ++ before,
      after ++ walkChildren above (index + 1) (root.children.drop (index + 1)), ?_, ?_, ?_, fun visit met => ?_⟩
    · simp [walkFrom_of_child above here, cut]
    · rw [leavesAmong_append, leavesFirst, ← List.singleton_append, leavesAmong_append, leavesAmong_walkChildren]
      simp [leavesAmong, isLeaf_of_child here, leavesBefore, here]
    · rw [leavesAmong_append, leavesLast, leavesAmong_walkChildren]
      simp [leavesAfter, here]
    · intro under
      simp only [List.mem_append, List.mem_cons] at met
      rcases met with ((rfl | left) | inFirst) | inLast | right
      · have longer : (above ++ index :: rest).length ≤ above.length := under.length_le
        rw [List.length_append, List.length_cons] at longer
        omega
      · have high := (index_of_mem_walkChildren left under).2
        rw [List.length_take] at high
        omega
      · exact apart visit (List.mem_append_left _ inFirst) under
      · exact apart visit (List.mem_append_right _ inLast) under
      · have low := (index_of_mem_walkChildren right under).1
        omega

end Cut

/-- What normalizing makes of a predicate. Nothing is left exactly of a predicate without leaves. Of any other a
collapsed one is left, with the same leaves in the same order, and so with the same bind names and the same nodes of
unknown kinds. A predicate is its own normal form exactly if it is collapsed, as all normal forms are. -/
theorem normalized_is_canonical (p : Predicate) :
    (p.normalized? = none ↔ p.leaves = []) ∧
    (∀ q, p.normalized? = some q → q.Collapsed ∧ q.leaves = p.leaves ∧ q.bindNames = p.bindNames ∧
      q.nodes.filter isUnknown = p.nodes.filter isUnknown) ∧
    (p.normalized? = some p ↔ p.Collapsed) ∧
    p.normalized?.bind normalized? = p.normalized? := by
  have kept (q : Predicate) (normal : p.normalized? = some q) : q.leaves = p.leaves := by
    have leaves := leavesOf_normalized? p
    rwa [normal, Option.toList_some, leavesOf_singleton] at leaves
  refine ⟨⟨fun gone => ?_, fun bare => ?_⟩, fun q normal => ⟨normalized?_collapsed p q normal, kept q normal, ?_, ?_⟩,
    ⟨normalized?_collapsed p p, Collapsed.normalized?⟩, normalized?_normalized? p⟩
  · rw [← leavesOf_normalized? p, gone]
    rfl
  · cases normal : p.normalized? with
    | none => rfl
    | some q =>
      have filled := (normalized?_collapsed p q normal).populated.leaves_ne_nil
      exact absurd ((kept q normal).trans bare) filled
  · rw [bindNames, bindNames, kept q normal]
  · rw [filter_isUnknown_nodes, filter_isUnknown_nodes, kept q normal]

/-- Empty levels on both sides of a node of an unknown kind, and two levels of one child each. -/
theorem normalized_is_canonical_of_empty_levels :
    let near : Predicate := .unknown "near" .null
    let ranked : Predicate := .compare ⟨"rank", .gt, .bind "low"⟩
    let p : Predicate := .and [.or [], .not (.or [.and [near], .and []]), .or [.and [ranked]]]
    let q : Predicate := .and [.not near, ranked]
    p.normalized? = some q ∧ q.Collapsed ∧ q.leaves = p.leaves ∧ q.bindNames = p.bindNames ∧
      q.nodes.filter isUnknown = p.nodes.filter isUnknown := by
  intro near ranked p q
  have normal : p.normalized? = some q := rfl
  obtain ⟨-, canonical, -, -⟩ := normalized_is_canonical p
  exact ⟨normal, canonical q normal⟩

/-- An edit of any predicate touches what it addresses and nothing else. A path that leads to a node cuts the walk in
three, what is visited before the node, the node with all that is below it, and what is visited after it; an edit at the
path succeeds whatever is put there, and its leaves are those visited before, those put there, and those visited
after. -/
theorem edit_keeps_leaves_around {root node : Predicate} {path : Path} (found : root.at? path = some node) :
    ∃ before after,
      root.walk = before ++ walkFrom path node ++ after ∧
      (∀ visit ∈ walkFrom path node, path <+: visit.1) ∧ (∀ visit ∈ before ++ after, ¬ path <+: visit.1) ∧
      root.leaves = leavesAmong before ++ node.leaves ++ leavesAmong after ∧
      ∀ replacement, ∃ result, root.replaceAt path replacement = .ok result ∧
        leavesOf result.toList = leavesAmong before ++ leavesOf replacement.toList ++ leavesAmong after := by
  obtain ⟨before, after, cut, first, last, apart⟩ := walkFrom_cut [] found
  refine ⟨before, after, cut, fun visit => prefix_of_mem_walkFrom path node, apart, ?_, fun replacement => ?_⟩
  · rw [first, last, leaves_at? found]
  · obtain ⟨result, done⟩ := replaceIn_of_found path (replacement.bind normalized?) found
    obtain ⟨-, -, leaves⟩ := leaves_replaceAt done
    exact ⟨result, done, by rw [first, last, leaves]⟩

/-- The second of two equal siblings is exchanged, below a negation and between other leaves like it. -/
theorem edit_keeps_leaves_around_equal_sibling :
    let leaf : Predicate := .compare ⟨"status", .eq, .bind "s"⟩
    let other : Predicate := .unknown "near" .null
    let root : Predicate := .and [leaf, .or [], .not (.and [leaf, leaf]), .or [leaf]]
    root.at? [2, 0, 1] = some leaf ∧
    root.replaceAt [2, 0, 1] (some (.or [.and [], other])) =
      .ok (some (.and [leaf, .or [], .not (.and [leaf, other]), .or [leaf]])) ∧
    ∃ before after, root.walk = before ++ walkFrom [2, 0, 1] leaf ++ after ∧
      (∀ visit ∈ before ++ after, ¬ [2, 0, 1] <+: visit.1) ∧
      [leaf, leaf, other, leaf] = leavesAmong before ++ [other] ++ leavesAmong after := by
  intro leaf other root
  have found : root.at? [2, 0, 1] = some leaf := rfl
  obtain ⟨before, after, cut, -, apart, -, edits⟩ := edit_keeps_leaves_around found
  obtain ⟨result, done, leaves⟩ := edits (some (.or [.and [], other]))
  cases done
  exact ⟨found, rfl, before, after, cut, apart, leaves⟩

end RunQuery.Predicate
