import Mathlib.Data.List.Lex
import RunQuery.Proofs.Predicate.Visits

/-!
Walks and addresses. A walk may keep one path, putting an index behind it on the way down and taking it away on the way
up; it comes back with the path it was given, and has met what the walk lists. The pairs that are met are those of the
paths and the nodes to which they lead. They come in the order of the paths, index by index: a node after the nodes
above it, and after all that is below the siblings to its left.
-/
namespace RunQuery.Predicate

section Tour

variable {σ : Type}

mutual

/-- A walk that keeps one path, and hands every node with the path at that time to `meet`. -/
def tour (meet : Path → Predicate → σ → σ) : Predicate → Path × σ → Path × σ
  | .and children, (path, s) => tourChildren meet 0 children (path, meet path (.and children) s)
  | .or children, (path, s) => tourChildren meet 0 children (path, meet path (.or children) s)
  | .not child, (path, s) =>
    let below := tour meet child (path ++ [0], meet path (.not child) s)
    (below.1.dropLast, below.2)
  | leaf, (path, s) => (path, meet path leaf s)

def tourChildren (meet : Path → Predicate → σ → σ) (index : Nat) : List Predicate → Path × σ → Path × σ
  | [], held => held
  | child :: rest, (path, s) =>
    let below := tour meet child (path ++ [index], s)
    tourChildren meet (index + 1) rest (below.1.dropLast, below.2)

end

mutual

/-- The path is back where it was, and the state has met the visits in their order. -/
theorem tour_eq_foldl (meet : Path → Predicate → σ → σ) (p : Predicate) (path : Path) (s : σ) :
    tour meet p (path, s) = (path, (walkFrom path p).foldl (fun s visit => meet visit.1 visit.2 s) s) := by
  match p with
  | .and children => exact tourChildren_eq_foldl meet 0 children path (meet path (.and children) s)
  | .or children => exact tourChildren_eq_foldl meet 0 children path (meet path (.or children) s)
  | .not child => simp [tour, walkFrom, tour_eq_foldl meet child]
  | .compare _ => rfl
  | .unknown _ _ => rfl

theorem tourChildren_eq_foldl (meet : Path → Predicate → σ → σ) (index : Nat) (children : List Predicate)
    (path : Path) (s : σ) :
    tourChildren meet index children (path, s) =
      (path, (walkChildren path index children).foldl (fun s visit => meet visit.1 visit.2 s) s) := by
  match children with
  | [] => rfl
  | child :: rest =>
    simp [tourChildren, walkChildren, tour_eq_foldl meet child, tourChildren_eq_foldl meet (index + 1) rest]

end

end Tour

section Address

variable {visit : Path × Predicate}

mutual

/-- What is met below a path is at the rest of its own path. -/
theorem at?_of_mem_walkFrom (path : Path) (p : Predicate) (met : visit ∈ walkFrom path p) :
    ∃ rest, visit.1 = path ++ rest ∧ p.at? rest = some visit.2 := by
  match p, List.mem_cons.mp (walkFrom_eq path p ▸ met) with
  | p, .inl here =>
    subst here
    exact ⟨[], (List.append_nil path).symm, rfl⟩
  | .and children, .inr below =>
    obtain ⟨i, rest, child, same, inside, found⟩ := at?_of_mem_walkChildren path 0 children below
    exact ⟨i :: rest, by simpa using same, at?_cons.mpr ⟨child, inside, found⟩⟩
  | .or children, .inr below =>
    obtain ⟨i, rest, child, same, inside, found⟩ := at?_of_mem_walkChildren path 0 children below
    exact ⟨i :: rest, by simpa using same, at?_cons.mpr ⟨child, inside, found⟩⟩
  | .not child, .inr below =>
    have inside : visit ∈ walkFrom (path ++ [0]) child := by simpa [walkChildren, children] using below
    obtain ⟨rest, same, found⟩ := at?_of_mem_walkFrom (path ++ [0]) child inside
    exact ⟨0 :: rest, by simpa using same, at?_cons.mpr ⟨child, rfl, found⟩⟩

theorem at?_of_mem_walkChildren (path : Path) (index : Nat) (children : List Predicate)
    (met : visit ∈ walkChildren path index children) :
    ∃ i rest child, visit.1 = path ++ (index + i) :: rest ∧ children[i]? = some child ∧
      child.at? rest = some visit.2 := by
  match children with
  | child :: others =>
    rcases List.mem_append.mp met with first | later
    · obtain ⟨rest, same, found⟩ := at?_of_mem_walkFrom (path ++ [index]) child first
      exact ⟨0, rest, child, by simpa using same, rfl, found⟩
    · obtain ⟨i, rest, below, same, inside, found⟩ := at?_of_mem_walkChildren path (index + 1) others later
      exact ⟨i + 1, rest, below, by simpa [Nat.add_assoc, Nat.add_comm 1] using same, by simpa using inside, found⟩

end

theorem mem_walk_iff {root node : Predicate} {path : Path} :
    (path, node) ∈ root.walk ↔ root.at? path = some node := by
  constructor
  · intro met
    obtain ⟨rest, same, found⟩ := at?_of_mem_walkFrom [] root met
    obtain rfl : path = rest := same
    exact found
  · intro found
    obtain ⟨before, after, cut, -⟩ := walkFrom_cut [] found
    rw [walk, cut, List.nil_append, walkFrom_eq]
    simp

/-- The leaves are the comparisons and the nodes of unknown kinds to which some path leads. -/
theorem mem_leaves_iff {root leaf : Predicate} :
    leaf ∈ root.leaves ↔ leaf.isLeaf = true ∧ ∃ path, root.at? path = some leaf := by
  rw [leaves_eq_filter_nodes, List.mem_filter, nodes, List.mem_map, and_comm]
  refine and_congr_right fun _ => ⟨?_, ?_⟩
  · rintro ⟨⟨path, node⟩, met, rfl⟩
    exact ⟨path, mem_walk_iff.mp met⟩
  · rintro ⟨path, found⟩
    exact ⟨(path, leaf), mem_walk_iff.mpr found, rfl⟩

theorem at?_append (root : Predicate) (path rest : Path) :
    root.at? (path ++ rest) = (root.at? path).bind (at? rest) := by
  induction path generalizing root with
  | nil => rfl
  | cons index path ih =>
    rw [List.cons_append, at?, at?, Option.bind_assoc]
    exact Option.bind_congr fun child _ => ih child

end Address

section Order

/-- What is above comes before what is below. -/
theorem lex_of_below {path other : Path} {i : Nat} (below : path ++ [i] <+: other) :
    List.Lex (· < ·) path other := by
  obtain ⟨rest, rfl⟩ := below
  have longer := List.Lex.append_left (· < ·) (List.Lex.nil (a := i) (l := rest)) path
  simpa using longer

/-- What is below one child comes before what is below a later one. -/
theorem lex_of_siblings {path first second : Path} {i j : Nat} (inFirst : path ++ [i] <+: first)
    (inSecond : path ++ [j] <+: second) (earlier : i < j) : List.Lex (· < ·) first second := by
  obtain ⟨rest, rfl⟩ := inFirst
  obtain ⟨others, rfl⟩ := inSecond
  have apart : List.Lex (· < ·) (i :: rest) (j :: others) := .rel earlier
  simpa using List.Lex.append_left (· < ·) apart path

/-- A node comes before all that is below it. -/
theorem pairwise_level {path : Path} {p : Predicate}
    (sorted : (walkChildren path 0 p.children).Pairwise fun a b => List.Lex (· < ·) a.1 b.1) :
    (walkFrom path p).Pairwise fun a b => List.Lex (· < ·) a.1 b.1 := by
  rw [walkFrom_eq]
  refine List.pairwise_cons.mpr ⟨fun visit met => ?_, sorted⟩
  obtain ⟨i, -, -, below⟩ := prefix_of_mem_walkChildren path 0 p.children met
  exact lex_of_below below

mutual

theorem pairwise_walkFrom (path : Path) (p : Predicate) :
    (walkFrom path p).Pairwise fun a b => List.Lex (· < ·) a.1 b.1 := by
  match p with
  | .and children => exact pairwise_level (pairwise_walkChildren path 0 children)
  | .or children => exact pairwise_level (pairwise_walkChildren path 0 children)
  | .not child =>
    apply pairwise_level
    simpa [walkChildren, children] using pairwise_walkFrom (path ++ [0]) child
  | .compare _ => exact List.pairwise_singleton ..
  | .unknown _ _ => exact List.pairwise_singleton ..

theorem pairwise_walkChildren (path : Path) (index : Nat) (children : List Predicate) :
    (walkChildren path index children).Pairwise fun a b => List.Lex (· < ·) a.1 b.1 := by
  match children with
  | [] => exact List.Pairwise.nil
  | child :: rest =>
    apply List.pairwise_append.mpr
    refine ⟨pairwise_walkFrom (path ++ [index]) child, pairwise_walkChildren path (index + 1) rest, ?_⟩
    intro a inChild b inRest
    obtain ⟨i, later, -, below⟩ := prefix_of_mem_walkChildren path (index + 1) rest inRest
    exact lex_of_siblings (prefix_of_mem_walkFrom _ child inChild) below later

end

theorem nodup_walk_paths (root : Predicate) : (root.walk.map Prod.fst).Nodup := by
  refine List.pairwise_map.mpr ((pairwise_walkFrom [] root).imp fun {a b} before same => ?_)
  rw [same] at before
  exact List.lex_irrefl Nat.lt_irrefl _ before

/-- The order of the paths is the order of the visits. -/
theorem lt_of_lex {root : Predicate} {i j : Nat} {a b : Path × Predicate} (first : root.walk[i]? = some a)
    (second : root.walk[j]? = some b) (before : List.Lex (· < ·) a.1 b.1) : i < j := by
  obtain ⟨inFirst, rfl⟩ := List.getElem?_eq_some_iff.mp first
  obtain ⟨inSecond, rfl⟩ := List.getElem?_eq_some_iff.mp second
  rcases Nat.lt_trichotomy i j with earlier | rfl | later
  · exact earlier
  · exact absurd before (List.lex_irrefl Nat.lt_irrefl _)
  · have after := List.pairwise_iff_getElem.mp (pairwise_walkFrom [] root) j i inSecond inFirst later
    exact absurd after (List.lex_asymm Nat.lt_asymm before)

end Order

section Collected

/-- A set of names takes in the placeholder of a comparison. -/
def collectName (_ : Path) (node : Predicate) (names : Dict Unit) : Dict Unit :=
  match node with
  | .compare ⟨_, _, .bind name⟩ => names.insert name ()
  | _ => names

def noteUnknown (_ : Path) (node : Predicate) (found : Bool) : Bool := found || node.isUnknown

theorem filterMap_bindName?_leaves (p : Predicate) :
    p.leaves.filterMap bindName? = p.walk.filterMap fun visit => visit.2.bindName? := by
  rw [leaves_eq_filter_nodes, nodes, List.filterMap_filter, List.filterMap_map]
  refine List.filterMap_congr fun visit _ => ?_
  obtain ⟨path, node⟩ := visit
  cases node <;> rfl

/-- The names of placeholders are what a set collects on a walk. -/
theorem bindNames_eq_tour (p : Predicate) : p.bindNames = (tour collectName p ([], .empty)).2.keys := by
  rw [tour_eq_foldl, bindNames, sortedTexts, Dict.ofList, filterMap_bindName?_leaves, List.foldl_map,
    List.foldl_filterMap]
  refine congrArg Dict.keys (List.foldl_ext _ _ _ fun names visit _ => ?_)
  obtain ⟨path, node⟩ := visit
  rcases node with _ | _ | _ | ⟨location, operation, _ | _ | _⟩ | _ <;> rfl

theorem hasUnknown_eq_tour (p : Predicate) : p.hasUnknown = (tour noteUnknown p ([], false)).2 := by
  have noted (visits : List (Path × Predicate)) (found : Bool) :
      visits.foldl (fun found visit => noteUnknown visit.1 visit.2 found) found =
        (found || visits.any fun visit => visit.2.isUnknown) := by
    induction visits generalizing found with
    | nil => simp
    | cons visit rest ih => rw [List.foldl_cons, ih, noteUnknown, List.any_cons, Bool.or_assoc]
  rw [tour_eq_foldl, noted, Bool.false_or, hasUnknown, leaves_eq_filter_nodes, nodes, List.any_filter, List.any_map]
  refine List.any_congr rfl fun visit => ?_
  obtain ⟨path, node⟩ := visit
  cases node <;> rfl

end Collected

/-- A walk over any predicate and its addresses agree. The pairs that are met are those of a path and the node to which
it leads, each path once, in the order of the paths: the first index that differs decides, and a path comes before those
that go on from it. So a node is met after the nodes above it, and after all that is below the siblings to its left. A
walk that keeps one path, changed on the way down and on the way up, tells just these pairs in this order and comes back
with the path it was given. -/
theorem walk_meets_addresses (root : Predicate) :
    (∀ path node, (path, node) ∈ root.walk ↔ root.at? path = some node) ∧
    (root.walk.map Prod.fst).Nodup ∧
    (root.walk.Pairwise fun a b => List.Lex (· < ·) a.1 b.1) ∧
    (∀ (i j : Nat) (a b : Path × Predicate), root.walk[i]? = some a → root.walk[j]? = some b →
      (a.1 <+: b.1 → a.1 ≠ b.1 → i < j) ∧
      ∀ path m n, path ++ [m] <+: a.1 → path ++ [n] <+: b.1 → m < n → i < j) ∧
    ∀ {σ : Type} (meet : Path → Predicate → σ → σ) (s : σ),
      tour meet root ([], s) = ([], root.walk.foldl (fun s visit => meet visit.1 visit.2 s) s) := by
  refine ⟨fun path node => mem_walk_iff, nodup_walk_paths root, pairwise_walkFrom [] root, ?_,
    fun meet s => tour_eq_foldl meet root [] s⟩
  intro i j a b first second
  constructor
  · rintro ⟨rest, longer⟩ apart
    cases rest with
    | nil => exact absurd ((List.append_nil _).symm.trans longer) apart
    | cons index rest =>
      refine lt_of_lex first second (lex_of_below (i := index) ⟨rest, ?_⟩)
      rw [← longer, List.append_assoc, List.singleton_append]
  · intro path m n inFirst inSecond earlier
    exact lt_of_lex first second (lex_of_siblings inFirst inSecond earlier)

/-- Three equal leaves, one of them below two levels that stand between the others. -/
theorem walk_meets_addresses_of_equal_leaves :
    let leaf : Predicate := .compare ⟨"status", .eq, .bind "s"⟩
    let root : Predicate := .and [leaf, .not (.or [.and [], leaf]), leaf]
    root.walk.map Prod.fst = [[], [0], [1], [1, 0], [1, 0, 0], [1, 0, 1], [2]] ∧
    root.at? [1, 0, 1] = some leaf ∧ ([1, 0, 1], leaf) ∈ root.walk ∧
    root.walk[3]? = some ([1, 0], .or [.and [], leaf]) ∧ root.walk[5]? = some ([1, 0, 1], leaf) ∧
    root.walk[6]? = some ([2], leaf) ∧ 3 < 5 ∧ 5 < 6 := by
  intro leaf root
  obtain ⟨met, -, -, order, -⟩ := walk_meets_addresses root
  have inner : root.walk[3]? = some ([1, 0], .or [.and [], leaf]) := rfl
  have second : root.walk[5]? = some ([1, 0, 1], leaf) := rfl
  have third : root.walk[6]? = some ([2], leaf) := rfl
  refine ⟨rfl, rfl, (met [1, 0, 1] leaf).mpr rfl, inner, second, third, ?_, ?_⟩
  · exact (order 3 5 _ _ inner second).1 ⟨[1], rfl⟩ (by simp)
  · exact (order 5 6 _ _ second third).2 [] 1 2 ⟨[0, 1], rfl⟩ ⟨[], rfl⟩ (by decide)

end RunQuery.Predicate
