import RunQuery.Predicate.Basic

/-!
Filters: a predicate, if there is one, and values for its placeholders. Filters conjoin: an absent
one gives way, parameters are united, and conjunctions are joined into one without nesting.
-/
namespace RunQuery

structure Filter where
  predicate : Option Predicate
  params : Dict Value
deriving Inhabited, BEq

inductive FilterError where
  | missingBind (names : List String)
deriving DecidableEq

def FilterError.message : FilterError → String
  | .missingBind names => "missing bind values: " ++ Text.joined ", " names

namespace Filter

def ofPredicate (p : Predicate) : Filter := ⟨some p, .empty⟩

def withParam (f : Filter) (name : String) (value : Value) : Filter :=
  { f with params := f.params.insert name value }

/-- Names of placeholders without a value, in order and each once. -/
def missingBinds (f : Filter) : List String :=
  match f.predicate with
  | none => []
  | some p => p.bindNames.filter fun name => !f.params.contains name

def validate (f : Filter) : Except FilterError Unit :=
  if f.missingBinds.isEmpty then .ok () else .error (.missingBind f.missingBinds)

def display (f : Filter) : String :=
  match f.predicate with
  | none => "<no predicate>"
  | some p => p.display

/-- What a predicate contributes to a conjunction: a conjunction its children, all else itself. -/
def conjuncts : Predicate → List Predicate
  | .and children => children
  | p => [p]

/-- The conjunction of two predicates, an absent one giving way. -/
def conjoinPredicates : Option Predicate → Option Predicate → Option Predicate
  | none, other => other
  | other, none => other
  | some left, some right => Predicate.conjunction? (conjuncts left ++ conjuncts right)

/-- The conjunction of two filters; of a parameter that both have, the second value stays. -/
def conjoin : Option Filter → Option Filter → Option Filter
  | none, other => other
  | other, none => other
  | some left, some right =>
    some ⟨conjoinPredicates left.predicate right.predicate, left.params.union right.params⟩

end Filter

end RunQuery
