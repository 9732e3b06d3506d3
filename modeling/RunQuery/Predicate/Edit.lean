import RunQuery.Predicate.Basic

/-!
Editing predicates by position. A path names a node by child indices from the root, since siblings
may be equal. An edit rebuilds the nodes on its path and collapses each of them: a level left empty
disappears, one left with a single child is replaced by it.
-/
namespace RunQuery

/-- Child indices from the root. -/
abbrev Path := List Nat

def Path.display (path : Path) : String :=
  if path.isEmpty then "/" else String.join (path.map fun index => "/" ++ toString index)

inductive EditError where
  | invalidPath (path : Path)
  | notAComparison (path : Path)
  /-- The path runs through a node whose children are not known. -/
  | unknownNode (path : Path) (kind : String)
deriving DecidableEq

def EditError.message : EditError → String
  | .invalidPath path => "no predicate node at " ++ path.display
  | .notAComparison path => "predicate node at " ++ path.display ++ " is not a comparison"
  | .unknownNode path kind =>
    "predicate node at " ++ path.display ++ " has unknown kind " ++ Text.quoted kind ++
      " and cannot be descended into"

namespace Predicate

/-- The node at a path. -/
def at? : Path → Predicate → Option Predicate
  | [], p => some p
  | index :: rest, p => p.children[index]?.bind (at? rest)

mutual

/-- Every node after the nodes above it and to its left, with its path below `path`. -/
def walkFrom (path : Path) : Predicate → List (Path × Predicate)
  | .and children => (path, .and children) :: walkChildren path 0 children
  | .or children => (path, .or children) :: walkChildren path 0 children
  | .not child => (path, .not child) :: walkFrom (path ++ [0]) child
  | leaf => [(path, leaf)]

def walkChildren (path : Path) (index : Nat) : List Predicate → List (Path × Predicate)
  | [] => []
  | child :: rest => walkFrom (path ++ [index]) child ++ walkChildren path (index + 1) rest

end

/-- Every node with its path, from the root. -/
def walk (p : Predicate) : List (Path × Predicate) := walkFrom [] p

/-- The children with the one at an index replaced or removed. -/
def spliced (children : List Predicate) (index : Nat) (replacement : Option Predicate) :
    List Predicate :=
  children.take index ++ replacement.toList ++ children.drop (index + 1)

/-- Replaces the node at the rest of a path and collapses the nodes above it. -/
def replaceIn (full : Path) (replacement : Option Predicate) :
    Path → Predicate → Except EditError (Option Predicate)
  | [], _ => .ok replacement
  | index :: rest, .and children =>
    match children[index]? with
    | none => .error (.invalidPath full)
    | some child =>
      (replaceIn full replacement rest child).map fun new =>
        conjunction? (spliced children index new)
  | index :: rest, .or children =>
    match children[index]? with
    | none => .error (.invalidPath full)
    | some child =>
      (replaceIn full replacement rest child).map fun new =>
        disjunction? (spliced children index new)
  | index :: rest, .not child =>
    if index = 0 then (replaceIn full replacement rest child).map (Option.map .not)
    else .error (.invalidPath full)
  | _ :: _, .compare _ => .error (.invalidPath full)
  | _ :: _, .unknown kind _ => .error (.unknownNode full kind)

/-- Replaces the node at a path by a normalized predicate, or removes it. -/
def replaceAt (root : Predicate) (path : Path) (replacement : Option Predicate) :
    Except EditError (Option Predicate) :=
  replaceIn path (replacement.bind normalized?) path root

def replaceChild (p : Predicate) (index : Nat) (replacement : Option Predicate) :
    Except EditError (Option Predicate) :=
  p.replaceAt [index] replacement

/-- Puts a changed comparison in the place of the one at a path. -/
def editComparison (root : Predicate) (path : Path) (edit : Comparison → Comparison) :
    Except EditError Predicate :=
  match root.at? path with
  | none => .error (.invalidPath path)
  | some (.compare c) =>
    match root.replaceAt path (some (.compare (edit c))) with
    | .ok (some p) => .ok p
    | .ok none => .error (.invalidPath path)
    | .error e => .error e
  | some _ => .error (.notAComparison path)

def setOperation (root : Predicate) (path : Path) (operation : Operation) :
    Except EditError Predicate :=
  root.editComparison path fun c => { c with operation }

def setOperand (root : Predicate) (path : Path) (operand : Operand) : Except EditError Predicate :=
  root.editComparison path fun c => { c with operand }

end Predicate

end RunQuery
