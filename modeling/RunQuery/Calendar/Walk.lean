import RunQuery.Config

/-!
The query of a calendar, and the walk through the pages of its result. The query asks for the records of
any of the sources that are of any of the kinds. A walk follows the token to the next page until there
is none, or until it has gone through as many pages as it may.
-/
namespace RunQuery

namespace Calendar

/-- What selects the records of one source. -/
def sourceClauses (config : CalendarConfig) (bind : String) : List Predicate :=
  let ofSource : Predicate := .compare ⟨config.sourceField, .eq, .bind bind⟩
  if config.kinds.isEmpty then [ofSource]
  else
    config.kinds.filterMap fun kind =>
      Predicate.conjunction? [ofSource, .compare ⟨config.kindField, .eq, .literal (.text kind)⟩]

def bindName (index : Nat) : String := "source" ++ toString index

/-- The filter for a set of sources, each of them bound to a parameter. -/
def sourceFilter? (config : CalendarConfig) (sources : List String) : Option Filter :=
  let clauses := (sources.mapIdx fun index _ => sourceClauses config (bindName index)).flatten
  let params := Dict.ofList (sources.mapIdx fun index source => (bindName index, Value.text source))
  (Predicate.disjunction? clauses).map fun p => ⟨some p, params⟩

end Calendar

structure Walk where
  filter : Filter
  limit : UInt32
  /-- Pages that may still be asked for. -/
  pagesLeft : Nat
  cursor : Option Cursor
  records : List Record

namespace Walk

def start (config : CalendarConfig) (filter : Filter) : Walk :=
  ⟨filter, config.pageLimit, config.maxPages.toNat, none, []⟩

/-- The request for the next page. -/
def request (walk : Walk) : Request := ⟨some walk.filter, [], some walk.limit, walk.cursor⟩

/-- The walk when a page has come: it goes on, or ends with all records. -/
def advance (walk : Walk) (page : Page) : Walk ⊕ List Record :=
  let records := walk.records ++ page.records
  match page.next, walk.pagesLeft - 1 with
  | some token, left + 1 =>
    .inl { walk with pagesLeft := left + 1, cursor := some (.forward token), records }
  | _, _ => .inr records

end Walk

end RunQuery
