import RunQuery.Predicate.Edit
import RunQuery.Query

/-!
The state of one table: filter, sort, place in the result, page and selection. A transition gives the
next state and says whether the page has to be loaded again; `withPage` puts a loaded page in. A
changed filter or page size starts again at the first page, since a cursor marks a place in one
result. The selection outlives the page it was made on.
-/
namespace RunQuery

/-- Number of records on a page. -/
structure PageSize where
  count : UInt32
  positive : count ≠ 0
deriving DecidableEq

namespace PageSize

instance : Inhabited PageSize := ⟨3, by decide⟩

def ofCount? (count : UInt32) : Option PageSize :=
  if h : count = 0 then none else some ⟨count, h⟩

end PageSize

/-- What is to be done after a transition. -/
inductive Effect where
  | reload
  | none
deriving DecidableEq

structure Navigator where
  pageSize : PageSize
  sort : SortSpec
  /-- Copies of the selected records by their ids. -/
  selection : Dict Record
  forward : Option String
  backward : Option String
  filter : Option Filter
  page : Page
deriving Inhabited, BEq

namespace Navigator

def new (pageSize : PageSize) : Navigator :=
  ⟨pageSize, .empty, .empty, none, none, none, .empty⟩

def isSelected (nav : Navigator) (id : String) : Bool := nav.selection.contains id

/-- The place where the next load starts. -/
def cursor (nav : Navigator) : Option Cursor :=
  (nav.forward.map .forward).or (nav.backward.map .backward)

def hasNext (nav : Navigator) : Bool := nav.page.next.isSome

def hasPrevious (nav : Navigator) : Bool := nav.page.previous.isSome

/-- The request that a load of this state sends. -/
def toRequest (nav : Navigator) : Request :=
  ⟨nav.filter, nav.sort.keys, some nav.pageSize.count, nav.cursor⟩

/-- Puts a loaded page in the place of the one shown. -/
def withPage (nav : Navigator) (page : Page) : Navigator := { nav with page }

def withoutCursors (nav : Navigator) : Navigator := { nav with forward := none, backward := none }

/-- Adds a filter to the standing one. -/
def setFilter (nav : Navigator) (filter : Filter) : Navigator :=
  { nav.withoutCursors with filter := Filter.conjoin nav.filter (some filter) }

def clearFilter (nav : Navigator) : Navigator := { nav.withoutCursors with filter := none }

/-- Replaces or removes one node of the standing filter. Its parameters stay; a filter of which
nothing is left is dropped. -/
def editFilter (nav : Navigator) (path : Path) (replacement : Option Predicate) :
    Except EditError Navigator :=
  match nav.filter with
  | some ⟨some root, params⟩ =>
    (root.replaceAt path replacement).map fun edited =>
      { nav.withoutCursors with filter := edited.map fun p => ⟨some p, params⟩ }
  | _ => .error (.invalidPath path)

/-- Takes a column one step around its cycle; the place in the result stays. -/
def toggleSort (nav : Navigator) (column : String) : Navigator :=
  { nav with sort := nav.sort.toggle column }

/-- The page after the one shown, unless that is the last. -/
def nextPage? (nav : Navigator) : Option Navigator :=
  nav.page.next.map fun token => { nav with forward := some token, backward := none }

/-- The page before the one shown, unless that is the first. -/
def previousPage? (nav : Navigator) : Option Navigator :=
  nav.page.previous.map fun token => { nav with forward := none, backward := some token }

def setPageSize (nav : Navigator) (pageSize : PageSize) : Navigator :=
  { nav.withoutCursors with pageSize }

/-- Deselects a record by its id, or selects it if it is on the page shown. -/
def toggleRow (nav : Navigator) (id : String) : Navigator :=
  let selection :=
    if nav.isSelected id then nav.selection.erase id
    else
      match nav.page.records.find? fun record => record.id = id with
      | some record => nav.selection.insert record.id record
      | none => nav.selection
  { nav with selection }

/-- Selects the whole page, or deselects everything if anything is selected. -/
def toggleAll (nav : Navigator) : Navigator :=
  let selection :=
    if nav.selection.isEmpty then
      Dict.ofList (nav.page.records.map fun record => (record.id, record))
    else .empty
  { nav with selection }

inductive Action where
  | setFilter (filter : Filter)
  | clearFilter
  | editFilter (path : Path) (replacement : Option Predicate)
  | toggleSort (column : String)
  | nextPage
  | previousPage
  | firstPage
  | setPageSize (pageSize : PageSize)
  | refresh
  | toggleRow (id : String)
  | toggleAll
deriving Inhabited

/-- A state after a load is due, or the same state with nothing to do. -/
def reloadOr (nav : Navigator) : Option Navigator → Navigator × Effect
  | some next => (next, .reload)
  | none => (nav, .none)

/-- The transition of an action. Only an edit can fail. -/
def apply (nav : Navigator) : Action → Except EditError (Navigator × Effect)
  | .setFilter filter => .ok (nav.setFilter filter, .reload)
  | .clearFilter => .ok (nav.clearFilter, .reload)
  | .editFilter path replacement => (nav.editFilter path replacement).map fun next => (next, .reload)
  | .toggleSort column => .ok (nav.toggleSort column, .reload)
  | .nextPage => .ok (nav.reloadOr nav.nextPage?)
  | .previousPage => .ok (nav.reloadOr nav.previousPage?)
  | .firstPage => .ok (nav.withoutCursors, .reload)
  | .setPageSize pageSize => .ok (nav.setPageSize pageSize, .reload)
  | .refresh => .ok (nav, .reload)
  | .toggleRow id => .ok (nav.toggleRow id, .none)
  | .toggleAll => .ok (nav.toggleAll, .none)

end Navigator

end RunQuery
