import RunQuery.Proofs.Dict
import RunQuery.Proofs.Navigator.Moves

/-!
Rows toggled one after another. A toggle turns its own row and leaves every other row as it was, and a row that is not
toggled in between is turned by what the first state says of it. So the order of toggles does not matter as long as no
row comes twice; and to toggle the whole page, or the whole selection, is the same as to toggle its rows in any order.
-/
namespace RunQuery.Navigator

/-- Toggles of single rows, one after another. -/
def rowToggles (ids : List String) : List Move := ids.map fun id => .act (.toggleRow id)

/-- The record of a row on the page shown. -/
def shown? (nav : Navigator) (id : String) : Option Record := nav.page.records.find? fun record => record.id = id

/-- What stands in the selection for a row after it was toggled. -/
def turned? (nav : Navigator) (id : String) : Option Record := if nav.isSelected id then none else nav.shown? id

section Row

variable {nav : Navigator} {ids : List String} {id other : String}

theorem isSelected_iff : nav.isSelected id = true ↔ id ∈ nav.selection.keys := Dict.mem_keys_iff.symm

theorem not_isSelected_iff : ¬ nav.isSelected id = true ↔ nav.selection.get? id = none := by
  rw [isSelected, Dict.contains, Option.not_isSome_iff_eq_none]

theorem get?_toggleRow (nav : Navigator) (id other : String) :
    (nav.toggleRow id).selection.get? other = if id = other then nav.turned? id else nav.selection.get? other := by
  rw [toggleRow, turned?]
  by_cases selected : nav.isSelected id = true
  · simp only [if_pos selected]
    exact Dict.get?_erase ..
  · simp only [if_neg selected]
    cases found : nav.shown? id with
    | some record =>
      have own : record.id = id := by simpa using List.find?_some found
      rw [shown?] at found
      simp only [found, own]
      exact Dict.get?_insert ..
    | none =>
      rw [shown?] at found
      simp only [found]
      split
      next same => exact same ▸ not_isSelected_iff.mp selected
      next => rfl

/-- A row is turned alike whether or not another one was toggled before. -/
theorem turned?_toggleRow (apart : id ≠ other) : (nav.toggleRow id).turned? other = nav.turned? other := by
  have same : (nav.toggleRow id).isSelected other = nav.isSelected other := by
    rw [isSelected, isSelected, Dict.contains, Dict.contains, get?_toggleRow, if_neg apart]
  rw [turned?, turned?, same]
  rfl

theorem replay_rowToggles_cons (nav : Navigator) (id : String) (rest : List String) :
    nav.replay (rowToggles (id :: rest)) = (nav.toggleRow id).replay (rowToggles rest) := rfl

/-- Of rows that are toggled once each, every one is turned, and no other. -/
theorem get?_replay_rowToggles (once : ids.Nodup) (nav : Navigator) (id : String) :
    (nav.replay (rowToggles ids)).selection.get? id = if id ∈ ids then nav.turned? id else nav.selection.get? id := by
  induction ids generalizing nav with
  | nil => rfl
  | cons first rest ih =>
    obtain ⟨absent, once⟩ := List.nodup_cons.mp once
    rw [replay_rowToggles_cons, ih once]
    by_cases own : first = id
    · subst own
      rw [if_neg absent, if_pos List.mem_cons_self, get?_toggleRow, if_pos rfl]
    · rw [turned?_toggleRow own, get?_toggleRow, if_neg own]
      simp [Ne.symm own]

/-- Toggles of rows change the selection only. -/
theorem replay_rowToggles (nav : Navigator) (ids : List String) :
    nav.replay (rowToggles ids) = { nav with selection := (nav.replay (rowToggles ids)).selection } := by
  induction ids generalizing nav with
  | nil => rfl
  | cons first rest ih => exact ih (nav.toggleRow first)

/-- Toggled rows make a selection that has what they turn to, and is the old one elsewhere. -/
theorem replay_rowToggles_eq {selection : Dict Record} (once : ids.Nodup)
    (turned : ∀ id ∈ ids, selection.get? id = nav.turned? id)
    (kept : ∀ id ∉ ids, selection.get? id = nav.selection.get? id) :
    nav.replay (rowToggles ids) = { nav with selection } := by
  have same : (nav.replay (rowToggles ids)).selection = selection := by
    refine Dict.ext_get? fun id => ?_
    rw [get?_replay_rowToggles once]
    split
    next member => exact (turned id member).symm
    next absent => exact (kept id absent).symm
  rw [replay_rowToggles, same]

end Row

section Whole

variable {nav : Navigator} {id : String}

/-- The ids of the page shown. -/
def shownIds (nav : Navigator) : List String := nav.page.records.map Record.id

theorem shown?_eq_none_iff : nav.shown? id = none ↔ id ∉ nav.shownIds := by
  simp [shown?, shownIds]

/-- The selection of the whole page shown. -/
def shownSelection (nav : Navigator) : Dict Record :=
  Dict.ofList (nav.page.records.map fun record => (record.id, record))

/-- A page without repeated ids is selected as it is shown. -/
theorem get?_shownSelection (distinct : nav.shownIds.Nodup) (id : String) :
    nav.shownSelection.get? id = nav.shown? id := by
  have keys : (nav.page.records.map fun record => (record.id, record)).map Prod.fst = nav.shownIds :=
    List.map_map
  have found (records : List Record) :
      Entries.get? id (records.map fun record => (record.id, record)) = records.find? fun record => record.id = id := by
    induction records with
    | nil => rfl
    | cons record rest ih => by_cases own : record.id = id <;> simp [Entries.get?, own, ih]
  rw [shownSelection, Dict.ofList, Dict.get?_foldl (keys ▸ distinct), found, Dict.get?_empty, Option.or_none, shown?]

theorem toggleAll_of_empty (empty : nav.selection = .empty) :
    nav.toggleAll = { nav with selection := nav.shownSelection } := by
  unfold toggleAll
  rw [if_pos (Dict.isEmpty_iff.mpr empty), shownSelection]

theorem toggleAll_of_nonempty (selected : nav.selection ≠ .empty) :
    nav.toggleAll = { nav with selection := .empty } := by
  unfold toggleAll
  rw [if_neg fun empty => selected (Dict.isEmpty_iff.mp empty)]

end Whole

/-- To toggle everything is to toggle row by row, in any order. With nothing selected these are the rows of the page,
if no id stands twice on it; with anything selected they are the rows of the selection, whether or not they are on the
page shown. -/
theorem toggleAll_is_rowwise (nav : Navigator) (ids : List String) :
    (nav.selection = .empty → nav.shownIds.Nodup → ids.Perm nav.shownIds →
      nav.replay (rowToggles ids) = nav.move (.act .toggleAll)) ∧
    (nav.selection ≠ .empty → ids.Perm nav.selection.keys →
      nav.replay (rowToggles ids) = nav.move (.act .toggleAll)) := by
  constructor
  · intro empty distinct order
    have none (id : String) : nav.selection.get? id = none := by rw [empty, Dict.get?_empty]
    show _ = nav.toggleAll
    rw [toggleAll_of_empty empty]
    refine replay_rowToggles_eq (order.nodup_iff.mpr distinct) (fun id _ => ?_) fun id absent => ?_
    · rw [get?_shownSelection distinct, turned?, if_neg (not_isSelected_iff.mpr (none id))]
    · rw [get?_shownSelection distinct, none, shown?_eq_none_iff]
      exact fun member => absent (order.mem_iff.mpr member)
  · intro selected order
    show _ = nav.toggleAll
    rw [toggleAll_of_nonempty selected]
    refine replay_rowToggles_eq (order.nodup_iff.mpr nav.selection.nodup_keys) (fun id member => ?_) fun id absent => ?_
    · rw [turned?, if_pos (isSelected_iff.mpr (order.mem_iff.mp member)), Dict.get?_empty]
    · have unselected : ¬ nav.isSelected id = true := by rwa [isSelected_iff, ← order.mem_iff]
      rw [not_isSelected_iff.mp unselected, Dict.get?_empty]

/-- Three rows are selected out of their order, and deselected in another one after the page was turned. -/
theorem toggleAll_is_rowwise_off_page :
    let record (id : String) : Record := ⟨id, "run", 1, .none⟩
    let nav := (new default).withPage ⟨["a", "b", "c"].map record, some "t", none⟩
    let turned := nav.toggleAll.withPage ⟨[record "d"], none, some "t"⟩
    nav.selection = .empty ∧ nav.shownIds.Nodup ∧ ["c", "a", "b"].Perm nav.shownIds ∧
    nav.replay (rowToggles ["c", "a", "b"]) = nav.move (.act .toggleAll) ∧
    turned.selection ≠ .empty ∧ ["b", "c", "a"].Perm turned.selection.keys ∧ turned.shownIds = ["d"] ∧
    turned.replay (rowToggles ["b", "c", "a"]) = turned.move (.act .toggleAll) := by
  intro record nav turned
  have distinct : nav.shownIds.Nodup := by decide +kernel
  have order : ["c", "a", "b"].Perm nav.shownIds := by decide +kernel
  have keys : turned.selection.keys = ["a", "b", "c"] := by decide +kernel
  have selected : turned.selection ≠ .empty := fun none => by
    rw [none] at keys
    cases keys
  have other : ["b", "c", "a"].Perm turned.selection.keys := by
    rw [keys]
    decide
  have whole := (toggleAll_is_rowwise nav ["c", "a", "b"]).1 rfl distinct order
  have rest := (toggleAll_is_rowwise turned ["b", "c", "a"]).2 selected other
  exact ⟨rfl, distinct, order, whole, selected, other, rfl, rest⟩

end RunQuery.Navigator
