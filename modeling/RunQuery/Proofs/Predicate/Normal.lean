import RunQuery.Predicate.Basic

/-!
Normal forms of predicates. What `normalized?` leaves is collapsed, and a collapsed predicate is its own normal
form; so normalizing once more changes nothing, at the root or at any level below it.
-/
namespace RunQuery.Predicate

theorem collapse_of_two_le {wrap : List Predicate → Predicate} {children : List Predicate}
    (two : 2 ≤ children.length) : collapse wrap children = some (wrap children) := by
  match children, two with
  | _ :: _ :: _, _ => rfl

theorem allCollapsed_iff {children : List Predicate} :
    AllCollapsed children ↔ ∀ child ∈ children, child.Collapsed := by
  induction children with
  | nil => simp [AllCollapsed]
  | cons child rest ih => simp [AllCollapsed, ih]

mutual

theorem Collapsed.normalized? {p : Predicate} (collapsed : p.Collapsed) : p.normalized? = some p := by
  match p, collapsed with
  | .and children, ⟨two, all⟩ =>
    rw [Predicate.normalized?, AllCollapsed.normalizedAll all]
    exact collapse_of_two_le two
  | .or children, ⟨two, all⟩ =>
    rw [Predicate.normalized?, AllCollapsed.normalizedAll all]
    exact collapse_of_two_le two
  | .not child, inner => rw [Predicate.normalized?, Collapsed.normalized? (p := child) inner, Option.map_some]
  | .compare _, _ => rfl
  | .unknown _ _, _ => rfl

theorem AllCollapsed.normalizedAll {children : List Predicate} (all : AllCollapsed children) :
    normalizedAll children = children := by
  match children, all with
  | [], _ => rfl
  | child :: rest, ⟨first, others⟩ =>
    rw [Predicate.normalizedAll, Collapsed.normalized? first, AllCollapsed.normalizedAll others]
    rfl

end

/-- A level of collapsed children is collapsed, whatever connective wraps it. -/
theorem collapse_collapsed {wrap : List Predicate → Predicate} {children : List Predicate}
    (wraps : 2 ≤ children.length → AllCollapsed children → (wrap children).Collapsed)
    (all : AllCollapsed children) : ∀ p ∈ collapse wrap children, p.Collapsed := by
  match children, all with
  | [], _ => exact fun p member => nomatch member
  | [child], all =>
    rintro p ⟨⟩
    exact all.1
  | first :: second :: rest, all =>
    rintro p ⟨⟩
    exact wraps (Nat.le_add_left 2 rest.length) all

mutual

theorem normalized?_collapsed (p : Predicate) : ∀ q ∈ p.normalized?, q.Collapsed := by
  match p with
  | .and children => exact collapse_collapsed And.intro (normalizedAll_collapsed children)
  | .or children => exact collapse_collapsed And.intro (normalizedAll_collapsed children)
  | .not child =>
    intro q member
    obtain ⟨inner, normal, rfl⟩ := Option.map_eq_some_iff.mp member
    exact normalized?_collapsed child inner normal
  | .compare c =>
    rintro q ⟨⟩
    trivial
  | .unknown kind raw =>
    rintro q ⟨⟩
    trivial

theorem normalizedAll_collapsed (children : List Predicate) : AllCollapsed (normalizedAll children) := by
  match children with
  | [] => trivial
  | child :: rest =>
    rw [normalizedAll, allCollapsed_iff]
    intro q member
    rcases List.mem_append.mp member with first | others
    · exact normalized?_collapsed child q (Option.mem_toList.mp first)
    · exact allCollapsed_iff.mp (normalizedAll_collapsed rest) q others

end

/-- A normal form is its own normal form. -/
theorem normalized?_normalized? (p : Predicate) : p.normalized?.bind normalized? = p.normalized? := by
  cases normal : p.normalized? with
  | none => rfl
  | some q => exact (normalized?_collapsed p q normal).normalized?

@[simp] theorem normalizedAll_normalizedAll (children : List Predicate) :
    normalizedAll (normalizedAll children) = normalizedAll children :=
  (normalizedAll_collapsed children).normalizedAll

end RunQuery.Predicate
