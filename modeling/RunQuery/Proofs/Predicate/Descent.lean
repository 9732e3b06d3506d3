import RunQuery.Predicate.Edit

/-!
Where a path leads. It goes on from a node to its child at the next index, and breaks off at a node that has none. What
an edit says of it then is up to the node at which it breaks off: nothing is known below a node of an unknown kind, and
below any other there is nothing at the index. Main statement: an edit is refused exactly if its path breaks off,
whatever was to be put there, and the error tells the nodes of unknown kinds apart.
-/
namespace RunQuery.Predicate

section Found

theorem at?_cons {index : Nat} {rest : Path} {root node : Predicate} :
    root.at? (index :: rest) = some node ↔
      ∃ child, root.children[index]? = some child ∧ child.at? rest = some node :=
  Option.bind_eq_some_iff

/-- Induction on the way down to a node: only connectives and negations lead on. -/
@[elab_as_elim]
theorem at?_induction {node : Predicate}
    {motive : (path : Path) → (root : Predicate) → root.at? path = some node → Prop}
    (here : motive [] node rfl)
    (and : ∀ (index : Nat) (rest : Path) (children : List Predicate) (child : Predicate)
      (inside : children[index]? = some child) (below : child.at? rest = some node), motive rest child below →
        motive (index :: rest) (.and children) (at?_cons.mpr ⟨child, inside, below⟩))
    (or : ∀ (index : Nat) (rest : Path) (children : List Predicate) (child : Predicate)
      (inside : children[index]? = some child) (below : child.at? rest = some node), motive rest child below →
        motive (index :: rest) (.or children) (at?_cons.mpr ⟨child, inside, below⟩))
    (not : ∀ (rest : Path) (child : Predicate) (below : child.at? rest = some node), motive rest child below →
        motive (0 :: rest) (.not child) (at?_cons.mpr ⟨child, rfl, below⟩))
    (path : Path) (root : Predicate) (found : root.at? path = some node) : motive path root found := by
  induction path generalizing root with
  | nil =>
    cases found
    exact here
  | cons index rest ih =>
    obtain ⟨child, inside, below⟩ := at?_cons.mp found
    cases root with
    | and children => exact and index rest children child inside below (ih child below)
    | or children => exact or index rest children child inside below (ih child below)
    | not only =>
      cases index with
      | zero =>
        obtain rfl : only = child := Option.some.inj inside
        exact not rest only below (ih only below)
      | succ index => cases inside
    | compare c => cases inside
    | unknown kind raw => cases inside

variable {root node : Predicate} {path : Path}

theorem replaceIn_nil (full : Path) (new : Option Predicate) (root : Predicate) :
    replaceIn full new [] root = .ok new := by
  cases root <;> rfl

/-- Where there is a node it is replaced, whatever the levels above it are. -/
theorem replaceIn_of_found (full : Path) (new : Option Predicate) (found : root.at? path = some node) :
    ∃ after, replaceIn full new path root = .ok after := by
  induction path, root, found using at?_induction with
  | here => exact ⟨new, replaceIn_nil ..⟩
  | and index rest children child inside below ih =>
    obtain ⟨inner, done⟩ := ih
    exact ⟨_, by simp only [replaceIn, inside, done]; rfl⟩
  | or index rest children child inside below ih =>
    obtain ⟨inner, done⟩ := ih
    exact ⟨_, by simp only [replaceIn, inside, done]; rfl⟩
  | not rest child below ih =>
    obtain ⟨inner, done⟩ := ih
    exact ⟨_, by simp only [replaceIn, if_pos, done]; rfl⟩

end Found

section Refused

/-- What an edit says of a path that breaks off at a node. -/
def refusal (full : Path) : Predicate → EditError
  | .unknown kind _ => .unknownNode full kind
  | _ => .invalidPath full

/-- The path leads to the node, and the node has no child at the next index. -/
def BreaksOff (root : Predicate) (path : Path) (node : Predicate) : Prop :=
  ∃ above index below, path = above ++ index :: below ∧ root.at? above = some node ∧ node.children[index]? = none

/-- The path goes on below a node of that unknown kind. -/
def Obstructed (root : Predicate) (path : Path) (kind : String) : Prop :=
  ∃ above raw, above <+: path ∧ above ≠ path ∧ root.at? above = some (.unknown kind raw)

variable {root node : Predicate} {path : Path}

/-- A path without a node has a last node above it, at which it breaks off. -/
theorem breaksOff_of_gone (gone : root.at? path = none) : ∃ node, BreaksOff root path node := by
  induction path generalizing root with
  | nil => cases gone
  | cons index rest ih =>
    rw [at?] at gone
    cases inside : root.children[index]? with
    | none => exact ⟨root, [], index, rest, rfl, rfl, inside⟩
    | some child =>
      rw [inside] at gone
      obtain ⟨node, above, next, below, rfl, found, last⟩ := ih gone
      exact ⟨node, index :: above, next, below, rfl, at?_cons.mpr ⟨child, inside, found⟩, last⟩

/-- The levels above hand the error of the node at which the path breaks off on as it is. -/
theorem BreaksOff.refused (breaks : BreaksOff root path node) (full : Path) (new : Option Predicate) :
    replaceIn full new path root = .error (node.refusal full) := by
  obtain ⟨above, index, below, rfl, found, last⟩ := breaks
  induction above, root, found using at?_induction with
  | here =>
    -- the edit has a guard of its own for each kind of node, and `last` says that it holds
    cases node with
    | and children =>
      have last : children[index]? = none := last
      simp only [List.nil_append, replaceIn, last, refusal]
    | or children =>
      have last : children[index]? = none := last
      simp only [List.nil_append, replaceIn, last, refusal]
    | not child =>
      have later : index ≠ 0 := by
        rintro rfl
        cases last
      simp only [List.nil_append, replaceIn, if_neg later, refusal]
    | compare c => rfl
    | unknown kind raw => rfl
  | and _ rest children child inside _ ih =>
    simp only [List.cons_append, replaceIn, inside, ih]
    rfl
  | or _ rest children child inside _ ih =>
    simp only [List.cons_append, replaceIn, inside, ih]
    rfl
  | not rest child _ ih =>
    simp only [List.cons_append, replaceIn, if_pos, ih]
    rfl

theorem BreaksOff.gone (breaks : BreaksOff root path node) : root.at? path = none := by
  refine Option.eq_none_iff_forall_ne_some.mpr fun other found => ?_
  obtain ⟨after, done⟩ := replaceIn_of_found path none found
  rw [breaks.refused] at done
  cases done

theorem replaceAt_eq_error_iff {replacement : Option Predicate} {error : EditError} :
    root.replaceAt path replacement = .error error ↔ ∃ node, BreaksOff root path node ∧ node.refusal path = error := by
  constructor
  · intro refused
    cases found : root.at? path with
    | none =>
      obtain ⟨node, breaks⟩ := breaksOff_of_gone found
      rw [replaceAt, breaks.refused] at refused
      exact ⟨node, breaks, Except.error.inj refused⟩
    | some node =>
      obtain ⟨after, done⟩ := replaceIn_of_found path (replacement.bind normalized?) found
      rw [replaceAt, done] at refused
      cases refused
  · rintro ⟨node, breaks, rfl⟩
    exact breaks.refused path _

theorem at?_of_replaceAt {replacement after : Option Predicate} (done : root.replaceAt path replacement = .ok after) :
    ∃ node, root.at? path = some node := by
  refine Option.ne_none_iff_exists'.mp fun gone => ?_
  obtain ⟨node, breaks⟩ := breaksOff_of_gone gone
  rw [replaceAt, breaks.refused] at done
  cases done

theorem exists_replaceAt_error_iff {replacement : Option Predicate} :
    (∃ error, root.replaceAt path replacement = .error error) ↔ root.at? path = none := by
  simp only [replaceAt_eq_error_iff]
  constructor
  · rintro ⟨error, node, breaks, -⟩
    exact breaks.gone
  · intro gone
    obtain ⟨node, breaks⟩ := breaksOff_of_gone gone
    exact ⟨_, node, breaks, rfl⟩

/-- A path breaks off at one node only, as far as its refusal tells. -/
theorem BreaksOff.refusal_eq {other : Predicate} (breaks : BreaksOff root path node)
    (again : BreaksOff root path other) (full : Path) : node.refusal full = other.refusal full :=
  Except.error.inj ((breaks.refused full none).symm.trans (again.refused full none))

/-- Below a node of an unknown kind a path breaks off at once. -/
theorem obstructed_iff {kind : String} :
    root.Obstructed path kind ↔ ∃ raw, BreaksOff root path (.unknown kind raw) := by
  constructor
  · rintro ⟨above, raw, ⟨below, rfl⟩, proper, found⟩
    cases below with
    | nil => exact absurd (List.append_nil above).symm proper
    | cons index rest => exact ⟨raw, above, index, rest, rfl, found, rfl⟩
  · rintro ⟨raw, above, index, below, rfl, found, -⟩
    exact ⟨above, raw, List.prefix_append .., by simp, found⟩

theorem refusal_of_unobstructed (breaks : BreaksOff root path node) (clear : ∀ kind, ¬ root.Obstructed path kind)
    (full : Path) : node.refusal full = .invalidPath full := by
  cases node with
  | unknown kind raw => exact absurd (obstructed_iff.mpr ⟨raw, breaks⟩) (clear kind)
  | _ => rfl

/-- Every edit of every predicate is refused exactly if its path leads to no node. The path runs into a node of an
unknown kind, and the error is that node's kind with the whole path; or it does not, and the path is called invalid.
What was to be put there makes no difference. -/
theorem replaceAt_refused_iff (root : Predicate) (path : Path) (replacement : Option Predicate) :
    ((∃ error, root.replaceAt path replacement = .error error) ↔ root.at? path = none) ∧
    (∀ kind, root.replaceAt path replacement = .error (.unknownNode path kind) ↔ root.Obstructed path kind) ∧
    (∀ error, root.replaceAt path replacement = .error error ↔
      (∃ kind, root.Obstructed path kind ∧ error = .unknownNode path kind) ∨
      root.at? path = none ∧ (∀ kind, ¬ root.Obstructed path kind) ∧ error = .invalidPath path) ∧
    ∀ other error, root.replaceAt path replacement = .error error ↔ root.replaceAt path other = .error error := by
  have classified (error : EditError) : root.replaceAt path replacement = .error error ↔
      (∃ kind, root.Obstructed path kind ∧ error = .unknownNode path kind) ∨
      root.at? path = none ∧ (∀ kind, ¬ root.Obstructed path kind) ∧ error = .invalidPath path := by
    rw [replaceAt_eq_error_iff]
    constructor
    · rintro ⟨node, breaks, rfl⟩
      by_cases blocked : ∃ kind, root.Obstructed path kind
      · obtain ⟨kind, obstructed⟩ := blocked
        obtain ⟨raw, wall⟩ := obstructed_iff.mp obstructed
        exact .inl ⟨kind, obstructed, breaks.refusal_eq wall path⟩
      · have clear := not_exists.mp blocked
        exact .inr ⟨breaks.gone, clear, refusal_of_unobstructed breaks clear path⟩
    · rintro (⟨kind, obstructed, rfl⟩ | ⟨gone, clear, rfl⟩)
      · obtain ⟨raw, wall⟩ := obstructed_iff.mp obstructed
        exact ⟨_, wall, rfl⟩
      · obtain ⟨node, breaks⟩ := breaksOff_of_gone gone
        exact ⟨node, breaks, refusal_of_unobstructed breaks clear path⟩
  refine ⟨exists_replaceAt_error_iff, fun kind => ?_, classified, fun other error => ?_⟩
  · simp [classified]
  · rw [replaceAt_eq_error_iff, replaceAt_eq_error_iff]

/-- Beside a node of an unknown kind, and into it. -/
example :
    let geo : Predicate := .unknown "geo" .null
    let root : Predicate := .not (.or [geo])
    root.replaceAt [0, 1, 0] none = .error (.invalidPath [0, 1, 0]) ∧
    root.replaceAt [0, 0, 1] (some geo) = .error (.unknownNode [0, 0, 1] "geo") := ⟨rfl, rfl⟩

end Refused

end RunQuery.Predicate
