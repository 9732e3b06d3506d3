import RunQuery.Proofs.Predicate.Edit
import RunQuery.Proofs.Store.Evaluate
import Mathlib.Data.List.Forall2

/-!
What predicates mean when they are collapsed. A level with one child is asked exactly what its child is asked, so
the normal form of a predicate says of every record what the predicate says, with the same error where it has one.
The exception are connectives without a child: an empty conjunction is true and an empty disjunction false, and the
normal form drops both. Edits collapse the levels on their path, and change no more than what they put there.
-/
namespace RunQuery.Predicate

mutual

/-- Every conjunction and every disjunction has a child. -/
def Populated : Predicate → Prop
  | .and children => children ≠ [] ∧ AllPopulated children
  | .or children => children ≠ [] ∧ AllPopulated children
  | .not child => child.Populated
  | _ => True

def AllPopulated : List Predicate → Prop
  | [] => True
  | child :: rest => child.Populated ∧ AllPopulated rest

end

theorem allPopulated_iff {children : List Predicate} :
    AllPopulated children ↔ ∀ child ∈ children, child.Populated := by
  induction children with
  | nil => simp [AllPopulated]
  | cons child rest ih => simp [AllPopulated, ih]

mutual

theorem Collapsed.populated {p : Predicate} (collapsed : p.Collapsed) : p.Populated := by
  match p, collapsed with
  | .and children, ⟨two, all⟩ =>
    exact ⟨List.ne_nil_of_length_pos (Nat.lt_of_lt_of_le Nat.zero_lt_two two), AllCollapsed.populated all⟩
  | .or children, ⟨two, all⟩ =>
    exact ⟨List.ne_nil_of_length_pos (Nat.lt_of_lt_of_le Nat.zero_lt_two two), AllCollapsed.populated all⟩
  | .not child, inner => exact Collapsed.populated (p := child) inner
  | .compare _, _ => trivial
  | .unknown _ _, _ => trivial

theorem AllCollapsed.populated {children : List Predicate} (all : AllCollapsed children) : AllPopulated children := by
  match children, all with
  | [], _ => trivial
  | child :: rest, ⟨first, others⟩ => exact ⟨Collapsed.populated first, AllCollapsed.populated others⟩

end

theorem Populated.child {p child : Predicate} (populated : p.Populated) (member : child ∈ p.children) :
    child.Populated := by
  cases p with
  | and children => exact allPopulated_iff.mp populated.2 child member
  | or children => exact allPopulated_iff.mp populated.2 child member
  | not only =>
    obtain rfl := List.mem_singleton.mp member
    exact populated
  | compare c => cases member
  | unknown kind raw => cases member

theorem Populated.at? {root node : Predicate} {path : Path} (populated : root.Populated)
    (found : root.at? path = some node) : node.Populated := by
  induction path generalizing root with
  | nil => exact Option.some.inj found ▸ populated
  | cons index rest ih =>
    obtain ⟨child, here, below⟩ := at?_cons.mp found
    exact ih (populated.child (List.mem_of_getElem? here)) below

theorem Populated.leaves_ne_nil {p : Predicate} (populated : p.Populated) : p.leaves ≠ [] := by
  match p, populated with
  | .and (child :: rest), ⟨_, first, _⟩ => exact List.append_ne_nil_of_left_ne_nil first.leaves_ne_nil _
  | .or (child :: rest), ⟨_, first, _⟩ => exact List.append_ne_nil_of_left_ne_nil first.leaves_ne_nil _
  | .not child, inner => exact Populated.leaves_ne_nil (p := child) inner
  | .compare c, _ => exact List.cons_ne_nil _ _
  | .unknown kind raw, _ => exact List.cons_ne_nil _ _

/-- Two predicates say the same of every record under any parameters: the same truth value, or the same error. -/
def Equivalent (p q : Predicate) : Prop :=
  ∀ params r, p.evaluate params r = q.evaluate params r

theorem Equivalent.refl (p : Predicate) : Equivalent p p := fun _ _ => rfl

theorem Equivalent.not {p q : Predicate} (same : Equivalent p q) : Equivalent p.not q.not :=
  fun params r => congrArg (Except.map (!·)) (same params r)

section Level

variable {level children : List Predicate}

theorem evaluateAll_congr (alike : List.Forall₂ Equivalent level children) (params : Dict Value) (r : Record) :
    evaluateAll params r level = evaluateAll params r children := by
  induction alike with
  | nil => rfl
  | cons head _ ih => rw [evaluateAll, evaluateAll, head params r, ih]

theorem evaluateAny_congr (alike : List.Forall₂ Equivalent level children) (params : Dict Value) (r : Record) :
    evaluateAny params r level = evaluateAny params r children := by
  induction alike with
  | nil => rfl
  | cons head _ ih => rw [evaluateAny, evaluateAny, head params r, ih]

/-- A level of populated predicates that is not empty collapses to a populated one. -/
theorem collapse_populated (wrap : List Predicate → Predicate)
    (wraps : level ≠ [] → AllPopulated level → (wrap level).Populated) (present : level ≠ [])
    (populated : AllPopulated level) : ∃ q, collapse wrap level = some q ∧ q.Populated := by
  match level, present with
  | [child], _ => exact ⟨child, rfl, populated.1⟩
  | _ :: _ :: _, present => exact ⟨_, rfl, wraps present populated⟩

variable (alike : List.Forall₂ Equivalent level children) (populated : AllPopulated level) (present : children ≠ [])

include alike present in
theorem level_ne_nil : level ≠ [] := by
  rintro rfl
  exact present (List.forall₂_nil_left_iff.mp alike)

include alike populated present

/-- A conjunction whose children are exchanged for others of the same meaning keeps its own when it is collapsed. -/
theorem conjunction?_equivalent :
    ∃ q, conjunction? level = some q ∧ q.Populated ∧ Equivalent q (.and children) := by
  obtain ⟨q, collapsed, whole⟩ := collapse_populated .and And.intro (level_ne_nil alike present) populated
  refine ⟨q, collapsed, whole, fun params r => ?_⟩
  have judged : (conjunction? level).elim (.ok true) (evaluate params r) = evaluateAll params r level :=
    evaluate_conjunction? level
  rw [conjunction?, collapsed] at judged
  exact judged.trans (evaluateAll_congr alike params r)

/-- A disjunction does so as well. -/
theorem disjunction?_equivalent :
    ∃ q, disjunction? level = some q ∧ q.Populated ∧ Equivalent q (.or children) := by
  obtain ⟨q, collapsed, whole⟩ := collapse_populated .or And.intro (level_ne_nil alike present) populated
  refine ⟨q, collapsed, whole, fun params r => ?_⟩
  exact (evaluate_disjunction? collapsed).trans (evaluateAny_congr alike params r)

end Level

mutual

theorem Populated.normalized? {p : Predicate} (populated : p.Populated) :
    ∃ q, p.normalized? = some q ∧ q.Populated ∧ Equivalent q p := by
  match p, populated with
  | .and children, ⟨present, all⟩ =>
    exact conjunction?_equivalent (AllPopulated.normalizedAll all) (normalizedAll_collapsed children).populated present
  | .or children, ⟨present, all⟩ =>
    exact disjunction?_equivalent (AllPopulated.normalizedAll all) (normalizedAll_collapsed children).populated present
  | .not child, inner =>
    obtain ⟨q, normal, whole, same⟩ := Populated.normalized? (p := child) inner
    exact ⟨q.not, congrArg (Option.map Predicate.not) normal, whole, same.not⟩
  | .compare c, _ => exact ⟨_, rfl, trivial, .refl _⟩
  | .unknown kind raw, _ => exact ⟨_, rfl, trivial, .refl _⟩

/-- No child of a populated level is lost. -/
theorem AllPopulated.normalizedAll {children : List Predicate} (all : AllPopulated children) :
    List.Forall₂ Equivalent (normalizedAll children) children := by
  match children, all with
  | [], _ => exact .nil
  | child :: rest, ⟨first, others⟩ =>
    obtain ⟨q, normal, -, same⟩ := Populated.normalized? first
    rw [Predicate.normalizedAll, normal]
    exact .cons same (AllPopulated.normalizedAll others)

end

section Edit

variable {children : List Predicate} {index : Nat} {child : Predicate}

theorem spliced_equivalent (here : children[index]? = some child) {inner : Predicate}
    {change : Predicate → Predicate} (same : Equivalent inner (change child)) :
    List.Forall₂ Equivalent (spliced children index (some inner)) (children.modify index change) := by
  obtain ⟨inside, rfl⟩ := List.getElem?_eq_some_iff.mp here
  have kept (part : List Predicate) : List.Forall₂ Equivalent part part :=
    List.forall₂_same.mpr fun p _ => .refl p
  rw [List.modify_eq_take_cons_drop inside, spliced, List.append_assoc]
  exact List.rel_append (kept _) (.cons same (kept _))

theorem spliced_populated (all : AllPopulated children) {inner : Predicate} (whole : inner.Populated) :
    AllPopulated (spliced children index (some inner)) := by
  rw [allPopulated_iff] at all ⊢
  intro p member
  rw [spliced, Option.toList_some, List.mem_append, List.mem_append, List.mem_singleton] at member
  rcases member with (before | rfl) | after
  · exact all p (List.mem_of_mem_take before)
  · exact whole
  · exact all p (List.mem_of_mem_drop after)

theorem modify_ne_nil (here : children[index]? = some child) (change : Predicate → Predicate) :
    children.modify index change ≠ [] := by
  rintro none
  rw [List.modify_eq_nil_iff] at none
  simp [none] at here

/-- Replacing by a normal form, below populated levels, means what the substitution means. -/
theorem replaceIn_equivalent (full : Path) {new : Predicate} (filled : new.Populated) {path : Path}
    {root node : Predicate} (populated : root.Populated) (found : root.at? path = some node) :
    ∃ q, replaceIn full new.normalized? path root = .ok (some q) ∧ q.Populated ∧
      Equivalent q (substitute new path root) := by
  induction path, root, found using at?_induction with
  | here =>
    obtain ⟨q, normal, whole, same⟩ := filled.normalized?
    refine ⟨q, ?_, whole, by cases node <;> exact same⟩
    rw [normal, replaceIn_nil]
  | and index rest children child inside _ ih =>
    obtain ⟨inner, done, whole, same⟩ := ih (populated.child (List.mem_of_getElem? inside))
    obtain ⟨q, collapsed, level⟩ := conjunction?_equivalent (spliced_equivalent inside same)
      (spliced_populated populated.2 whole) (modify_ne_nil inside _)
    refine ⟨q, ?_, level⟩
    simp only [replaceIn, inside, done]
    exact congrArg Except.ok collapsed
  | or index rest children child inside _ ih =>
    obtain ⟨inner, done, whole, same⟩ := ih (populated.child (List.mem_of_getElem? inside))
    obtain ⟨q, collapsed, level⟩ := disjunction?_equivalent (spliced_equivalent inside same)
      (spliced_populated populated.2 whole) (modify_ne_nil inside _)
    refine ⟨q, ?_, level⟩
    simp only [replaceIn, inside, done]
    exact congrArg Except.ok collapsed
  | not rest child _ ih =>
    have filled : child.Populated := populated
    obtain ⟨inner, done, whole, same⟩ := ih filled
    refine ⟨inner.not, ?_, whole, same.not⟩
    simp only [replaceIn, if_pos, done]
    rfl

theorem replaceAt_equivalent {new root node : Predicate} {path : Path} (filled : new.Populated)
    (populated : root.Populated) (found : root.at? path = some node) :
    ∃ q, root.replaceAt path (some new) = .ok (some q) ∧ q.Populated ∧ Equivalent q (substitute new path root) :=
  replaceIn_equivalent path filled populated found

/-- To put a node in its own place changes nothing. -/
theorem substitute_self {path : Path} {root node : Predicate} (found : root.at? path = some node) :
    substitute node path root = root := by
  induction path, root, found using at?_induction with
  | here => cases node <;> rfl
  | and index rest children child inside _ ih =>
    have level := map_modify_of_eq id inside ih
    rw [List.map_id, List.map_id] at level
    exact congrArg Predicate.and level
  | or index rest children child inside _ ih =>
    have level := map_modify_of_eq id inside ih
    rw [List.map_id, List.map_id] at level
    exact congrArg Predicate.or level
  | not rest child _ ih => exact congrArg Predicate.not ih

end Edit

end RunQuery.Predicate
