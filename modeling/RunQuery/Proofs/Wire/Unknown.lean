import RunQuery.Proofs.Predicate.Conjoin
import RunQuery.Proofs.Wire.Numbers

/-!
Nodes of unknown kinds, in a predicate and in what is sent. In a tree that is sent they are found by the tags of its
nodes: a node of a known kind is entered where that kind holds nodes, one of an unknown kind is not entered. The tree
that is written of a predicate holds the unknown nodes of the predicate, the same nodes from left to right.
-/
namespace RunQuery

namespace Predicate

/-- A node of an unknown kind, as its kind and what was received. -/
def unknown? : Predicate → Option (String × Wire)
  | .unknown kind raw => some (kind, raw)
  | _ => none

def unknownsOf (children : List Predicate) : List (String × Wire) := (leavesOf children).filterMap unknown?

/-- The nodes of unknown kinds, from left to right. -/
def unknowns (p : Predicate) : List (String × Wire) := p.leaves.filterMap unknown?

@[simp] theorem unknownsOf_nil : unknownsOf [] = [] := rfl

@[simp] theorem unknownsOf_cons (p : Predicate) (rest : List Predicate) :
    unknownsOf (p :: rest) = p.unknowns ++ unknownsOf rest := by
  simp [unknownsOf, leavesOf, unknowns]

/-- The fields in which a node of a known kind holds other nodes. -/
def opened (kind : String) : List String :=
  if kind = "and" ∨ kind = "or" then ["children"] else if kind = "not" then ["child"] else []

end Predicate

namespace Decode

/-- Whether a key stands for one of some names. -/
def names (fields : List String) (key : Wire) : Bool :=
  match fieldIndex fields key with
  | .ok (some _) => true
  | _ => false

end Decode

namespace Wire

mutual

/-- The nodes of unknown kinds in what stands for a node or for a list of nodes. -/
def unknowns : Wire → List (String × Wire)
  | .list nodes => unknownsOf nodes
  | .map entries =>
    match field? "kind" entries with
    | some (.text kind) =>
      if kind ∈ Predicate.knownKinds then unknownsUnder (Predicate.opened kind) entries else [(kind, .map entries)]
    | _ => []
  | _ => []

def unknownsOf : List Wire → List (String × Wire)
  | [] => []
  | node :: rest => node.unknowns ++ unknownsOf rest

/-- The nodes of unknown kinds in some fields of a record. -/
def unknownsUnder (fields : List String) : List (Wire × Wire) → List (String × Wire)
  | [] => []
  | (key, value) :: rest => (if Decode.names fields key then value.unknowns else []) ++ unknownsUnder fields rest

end

/-- The nodes of unknown kinds in what stands for a filter: a record, or the list of its fields. -/
def filterUnknowns : Wire → List (String × Wire)
  | .map entries => unknownsUnder ["predicate"] entries
  | .list (predicate :: _) => predicate.unknowns
  | _ => []

/-- Each of some nodes is a map in which the first entry of the name `kind` holds its kind, none of the known ones. -/
def Received (nodes : List (String × Wire)) : Prop :=
  ∀ node ∈ nodes, ∃ entries, node.2 = .map entries ∧ field? "kind" entries = some (.text node.1) ∧
    node.1 ∉ Predicate.knownKinds

theorem received_append {first second : List (String × Wire)} :
    Received (first ++ second) ↔ Received first ∧ Received second :=
  List.forall_mem_append

mutual

theorem received_unknowns (w : Wire) : Received w.unknowns := by
  match w with
  | .list nodes => exact received_unknownsOf nodes
  | .map entries =>
    rw [unknowns]
    split
    next kind tagged =>
      split
      · exact received_unknownsUnder (Predicate.opened kind) entries
      next other =>
        intro node member
        obtain rfl := List.mem_singleton.mp member
        exact ⟨entries, rfl, tagged, other⟩
    next => exact nofun
  | .null | .bool _ | .int _ | .single _ | .double _ | .text _ | .bytes _ => exact nofun

theorem received_unknownsOf (nodes : List Wire) : Received (unknownsOf nodes) := by
  match nodes with
  | [] => exact nofun
  | node :: rest => exact received_append.mpr ⟨received_unknowns node, received_unknownsOf rest⟩

theorem received_unknownsUnder (fields : List String) (entries : List (Wire × Wire)) :
    Received (unknownsUnder fields entries) := by
  match entries with
  | [] => exact nofun
  | (key, value) :: rest =>
    refine received_append.mpr ⟨?_, received_unknownsUnder fields rest⟩
    split
    · exact received_unknowns value
    · exact nofun

end

theorem received_filterUnknowns (w : Wire) : Received w.filterUnknowns := by
  unfold filterUnknowns
  split
  · exact received_unknownsUnder _ _
  · exact received_unknowns _
  · exact nofun

section Renumbered

variable (ρ : Number → Number)

/-- A node with another number in the place of each. -/
def renumbered (node : String × Wire) : String × Wire := (node.1, node.2.mapNumbers ρ)

mutual

theorem unknowns_mapNumbers (w : Wire) : (w.mapNumbers ρ).unknowns = w.unknowns.map (renumbered ρ) := by
  match w with
  | .list nodes => exact unknownsOf_mapItems nodes
  | .map entries =>
    rw [mapNumbers, unknowns, field?_mapEntries, unknowns]
    cases field? "kind" entries with
    | none => rfl
    | some tag =>
      cases tag with
      | text kind =>
        simp only [Option.map_some, mapNumbers]
        split
        · exact unknownsUnder_mapEntries _ entries
        · rfl
      | _ => rfl
  | .null | .bool _ | .int _ | .single _ | .double _ | .text _ | .bytes _ => rfl

theorem unknownsOf_mapItems (nodes : List Wire) :
    unknownsOf (mapItems ρ nodes) = (unknownsOf nodes).map (renumbered ρ) := by
  match nodes with
  | [] => rfl
  | node :: rest =>
    rw [mapItems, unknownsOf, unknowns_mapNumbers node, unknownsOf_mapItems rest, unknownsOf, List.map_append]

theorem unknownsUnder_mapEntries (fields : List String) (entries : List (Wire × Wire)) :
    unknownsUnder fields (mapEntries ρ entries) = (unknownsUnder fields entries).map (renumbered ρ) := by
  match entries with
  | [] => rfl
  | (key, value) :: rest =>
    rw [mapEntries, unknownsUnder, unknowns_mapNumbers value, unknownsUnder_mapEntries fields rest, unknownsUnder,
      List.map_append]
    split <;> rfl

end

theorem filterUnknowns_mapNumbers (w : Wire) :
    (w.mapNumbers ρ).filterUnknowns = w.filterUnknowns.map (renumbered ρ) := by
  match w with
  | .map entries => exact unknownsUnder_mapEntries ρ _ entries
  | .list (predicate :: _) => exact unknowns_mapNumbers ρ predicate
  | .list [] => rfl
  | .null | .bool _ | .int _ | .single _ | .double _ | .text _ | .bytes _ => rfl

theorem renumbered_of_fixed {nodes : List (String × Wire)} (fixed : ∀ node ∈ nodes, ∀ n ∈ node.2.numbers, ρ n = n) :
    nodes.map (renumbered ρ) = nodes := by
  have same : nodes.map (renumbered ρ) = nodes.map id := by
    apply List.map_congr_left
    intro node member
    rw [renumbered, mapNumbers_of_fixed ρ (fixed node member)]
    rfl
  rw [same, List.map_id]

end Renumbered

end Wire

namespace Predicate

mutual

/-- What is written of a predicate holds its unknown nodes, if they are such as are received. -/
theorem unknowns_toWire {p : Predicate} (received : Wire.Received p.unknowns) : p.toWire.unknowns = p.unknowns := by
  match p with
  | .and children =>
    have inside : Wire.unknownsOf (childrenToWire children) = unknownsOf children :=
      unknownsOf_childrenToWire received
    show [] ++ (Wire.unknownsOf (childrenToWire children) ++ []) = unknownsOf children
    rw [inside, List.append_nil, List.nil_append]
  | .or children =>
    have inside : Wire.unknownsOf (childrenToWire children) = unknownsOf children :=
      unknownsOf_childrenToWire received
    show [] ++ (Wire.unknownsOf (childrenToWire children) ++ []) = unknownsOf children
    rw [inside, List.append_nil, List.nil_append]
  | .not child =>
    have inside := unknowns_toWire (p := child) received
    show [] ++ (child.toWire.unknowns ++ []) = child.unknowns
    rw [inside, List.append_nil, List.nil_append]
  | .compare c => rfl
  | .unknown kind raw =>
    obtain ⟨entries, whole, tagged, other⟩ := received (kind, raw) (List.mem_singleton_self _)
    obtain rfl : raw = .map entries := whole
    rw [toWire, Wire.unknowns, tagged]
    exact if_neg other

theorem unknownsOf_childrenToWire {children : List Predicate} (received : Wire.Received (unknownsOf children)) :
    Wire.unknownsOf (childrenToWire children) = unknownsOf children := by
  match children with
  | [] => rfl
  | child :: rest =>
    rw [unknownsOf_cons, Wire.received_append] at received
    rw [childrenToWire, Wire.unknownsOf, unknowns_toWire received.1, unknownsOf_childrenToWire received.2,
      unknownsOf_cons]

end

end Predicate

namespace Filter

/-- The nodes of unknown kinds of a filter; there are none without one. -/
def unknowns (a : Option Filter) : List (String × Wire) := (leaves a).filterMap Predicate.unknown?

theorem unknowns_toWire {f : Filter} (received : Wire.Received (unknowns (some f))) :
    f.toWire.filterUnknowns = unknowns (some f) := by
  obtain ⟨predicate, params⟩ := f
  have others (value : Option Wire) : Wire.unknownsUnder ["predicate"]
      ((optionalField "params" value).map fun field => (Wire.text field.1, field.2)) = [] := by
    cases value <;> rfl
  cases predicate with
  | none => exact others _
  | some p =>
    have inside := Predicate.unknowns_toWire (p := p) received
    show p.toWire.unknowns ++ Wire.unknownsUnder ["predicate"]
      ((optionalField "params" _).map fun field => (Wire.text field.1, field.2)) = p.unknowns
    rw [others, inside, List.append_nil]

end Filter

end RunQuery
