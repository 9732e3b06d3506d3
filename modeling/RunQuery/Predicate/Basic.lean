import RunQuery.Value
import RunQuery.Wire

/-!
Predicates over records. A conjunction or disjunction with fewer than two children means no more than
its child, or nothing at all; `normalized?` drops such nodes from the leaves up, and `Collapsed` says
that there are none. Leaves are comparisons and nodes of kinds that are not known here, which are
carried along as they were received.
-/
namespace RunQuery

inductive Operation where
  | eq | neq | lt | lte | gt | gte
deriving DecidableEq, Inhabited

namespace Operation

def all : List Operation := [.eq, .neq, .lt, .lte, .gt, .gte]

def name : Operation → String
  | .eq => "eq"
  | .neq => "neq"
  | .lt => "lt"
  | .lte => "lte"
  | .gt => "gt"
  | .gte => "gte"

def symbol : Operation → String
  | .eq => "=="
  | .neq => "!="
  | .lt => "<"
  | .lte => "<="
  | .gt => ">"
  | .gte => ">="

end Operation

/-- The right-hand side of a comparison. -/
inductive Operand where
  /-- A placeholder whose value comes with the filter. -/
  | bind (name : String)
  | literal (value : Value)
  /-- Another field of the same record. -/
  | field (path : String)
deriving Inhabited, BEq

namespace Operand

def bindName? : Operand → Option String
  | .bind name => some name
  | _ => none

def display : Operand → String
  | .bind name => ":" ++ name
  | .literal value => value.display
  | .field path => "@" ++ path

end Operand

structure Comparison where
  location : String
  operation : Operation
  operand : Operand
deriving Inhabited, BEq

def Comparison.display (c : Comparison) : String :=
  c.location ++ " " ++ c.operation.symbol ++ " " ++ c.operand.display

inductive Predicate where
  | and (children : List Predicate)
  | or (children : List Predicate)
  | not (child : Predicate)
  | compare (comparison : Comparison)
  /-- A node of a kind that is not known, as received. -/
  | unknown (kind : String) (raw : Wire)
deriving Inhabited

namespace Predicate

/-- No children make nothing, one child stands for itself. -/
def collapse (wrap : List Predicate → Predicate) : List Predicate → Option Predicate
  | [] => none
  | [child] => some child
  | children => some (wrap children)

def conjunction? : List Predicate → Option Predicate := collapse .and

def disjunction? : List Predicate → Option Predicate := collapse .or

mutual

/-- The predicate with every level collapsed; nothing is left of a tree without leaves. -/
def normalized? : Predicate → Option Predicate
  | .and children => conjunction? (normalizedAll children)
  | .or children => disjunction? (normalizedAll children)
  | .not child => (normalized? child).map .not
  | leaf => some leaf

def normalizedAll : List Predicate → List Predicate
  | [] => []
  | child :: rest => (normalized? child).toList ++ normalizedAll rest

end

mutual

/-- Every conjunction and disjunction has at least two children. -/
def Collapsed : Predicate → Prop
  | .and children => 2 ≤ children.length ∧ AllCollapsed children
  | .or children => 2 ≤ children.length ∧ AllCollapsed children
  | .not child => child.Collapsed
  | _ => True

def AllCollapsed : List Predicate → Prop
  | [] => True
  | child :: rest => child.Collapsed ∧ AllCollapsed rest

end

def children : Predicate → List Predicate
  | .and children => children
  | .or children => children
  | .not child => [child]
  | _ => []

mutual

/-- Comparisons and unknown nodes from left to right. -/
def leaves : Predicate → List Predicate
  | .and children => leavesOf children
  | .or children => leavesOf children
  | .not child => leaves child
  | leaf => [leaf]

def leavesOf : List Predicate → List Predicate
  | [] => []
  | child :: rest => leaves child ++ leavesOf rest

end

def bindName? : Predicate → Option String
  | .compare c => c.operand.bindName?
  | _ => none

/-- Names of all placeholders, in order and each once. -/
def bindNames (p : Predicate) : List String := sortedTexts (p.leaves.filterMap bindName?)

def isUnknown : Predicate → Bool
  | .unknown _ _ => true
  | _ => false

def hasUnknown (p : Predicate) : Bool := p.leaves.any isUnknown

mutual

/-- Equality as filters see it, number by number. -/
def same : Predicate → Predicate → Bool
  | .and as, .and bs => sameAll as bs
  | .or as, .or bs => sameAll as bs
  | .not a, .not b => same a b
  | .compare a, .compare b => a == b
  | .unknown k a, .unknown l b => k = l && a == b
  | _, _ => false

def sameAll : List Predicate → List Predicate → Bool
  | [], [] => true
  | a :: as, b :: bs => same a b && sameAll as bs
  | _, _ => false

end

instance : BEq Predicate := ⟨same⟩

mutual

/-- Readable text of a predicate. -/
def display : Predicate → String
  | .and children => "(" ++ Text.joined " AND " (displayAll children) ++ ")"
  | .or children => "(" ++ Text.joined " OR " (displayAll children) ++ ")"
  | .not child => "NOT " ++ display child
  | .compare c => c.display
  | .unknown kind _ => "<unknown predicate kind " ++ Text.quoted kind ++ ">"

def displayAll : List Predicate → List String
  | [] => []
  | child :: rest => display child :: displayAll rest

end

end Predicate

end RunQuery
