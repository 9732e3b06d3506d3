import RunQuery.Navigator
import RunQuery.Proofs.Except
import RunQuery.Proofs.Predicate.Descent

/-!
Moves of a navigator: an action, or a page that has come. An action that fails moves nothing; one that does not is a
load that is due, or a step that needs none. What an action can do to the page shown, to the cursors and to the
filter is said here once.
-/
namespace RunQuery.Navigator

inductive Move where
  | act (action : Action)
  /-- A page has come. -/
  | load (page : Page)

def Move.action? : Move → Option Action
  | .act action => some action
  | .load _ => none

/-- An action that fails moves nothing. -/
def move (nav : Navigator) : Move → Navigator
  | .act action =>
    match nav.apply action with
    | .ok (next, _) => next
    | .error _ => nav
  | .load page => nav.withPage page

def replay (nav : Navigator) (moves : List Move) : Navigator := moves.foldl move nav

def reloads (nav : Navigator) (action : Action) : Bool :=
  match nav.apply action with
  | .ok (_, .reload) => true
  | _ => false

theorem replay_append (nav : Navigator) (early late : List Move) :
    nav.replay (early ++ late) = (nav.replay early).replay late :=
  List.foldl_append

theorem move_of_ok {nav next : Navigator} {action : Action} {effect : Effect}
    (applied : nav.apply action = .ok (next, effect)) : nav.move (.act action) = next := by
  simp [move, applied]

theorem move_of_error {nav : Navigator} {action : Action} {error : EditError}
    (applied : nav.apply action = .error error) : nav.move (.act action) = nav := by
  simp [move, applied]

theorem reloadOr_request (nav : Navigator) (next? : Option Navigator) {next : Navigator} {effect : Effect}
    (moved : nav.reloadOr next? = (next, effect)) : effect = .none → next = nav := by
  rintro rfl
  cases next? <;> simp_all [reloadOr]

/-- Turned to the next page, a navigator takes up the token of the page shown, or stays as it was. -/
theorem apply_nextPage {nav next : Navigator} {effect : Effect} (applied : nav.apply .nextPage = .ok (next, effect)) :
    next = nav ∨
      ∃ token, nav.page.next = some token ∧ next = { nav with forward := some token, backward := none } := by
  have moved : nav.reloadOr nav.nextPage? = (next, effect) := Except.ok.inj applied
  unfold nextPage? at moved
  cases offered : nav.page.next with
  | none =>
    rw [offered] at moved
    exact .inl (Prod.mk.inj moved).1.symm
  | some token =>
    rw [offered] at moved
    exact .inr ⟨token, rfl, (Prod.mk.inj moved).1.symm⟩

/-- Turned to the previous page, a navigator takes up the token of the page shown, or stays as it was. -/
theorem apply_previousPage {nav next : Navigator} {effect : Effect}
    (applied : nav.apply .previousPage = .ok (next, effect)) :
    next = nav ∨
      ∃ token, nav.page.previous = some token ∧ next = { nav with forward := none, backward := some token } := by
  have moved : nav.reloadOr nav.previousPage? = (next, effect) := Except.ok.inj applied
  unfold previousPage? at moved
  cases offered : nav.page.previous with
  | none =>
    rw [offered] at moved
    exact .inl (Prod.mk.inj moved).1.symm
  | some token =>
    rw [offered] at moved
    exact .inr ⟨token, rfl, (Prod.mk.inj moved).1.symm⟩

/-- An edit that is done was done to a predicate that stood, and starts again at the first page. -/
theorem editFilter_eq_ok {nav next : Navigator} {path : Path} {replacement : Option Predicate}
    (edited : nav.editFilter path replacement = .ok next) :
    ∃ root params after, nav.filter = some ⟨some root, params⟩ ∧ root.replaceAt path replacement = .ok after ∧
      next = { nav.withoutCursors with filter := after.map fun p => ⟨some p, params⟩ } := by
  unfold editFilter at edited
  split at edited
  next root params standing =>
    obtain ⟨after, replaced, rfl⟩ := map_eq_ok edited
    exact ⟨root, params, after, standing, replaced, rfl⟩
  next => simp at edited

/-- The predicate of the standing filter. -/
def standing? (nav : Navigator) : Option Predicate := nav.filter.bind Filter.predicate

/-- An edit is refused if there is nothing to edit, or by the predicate that stands. -/
theorem editFilter_eq_error_iff {nav : Navigator} {path : Path} {replacement : Option Predicate} {error : EditError} :
    nav.editFilter path replacement = .error error ↔
      nav.standing? = none ∧ error = .invalidPath path ∨
      ∃ root, nav.standing? = some root ∧ root.replaceAt path replacement = .error error := by
  unfold editFilter
  split
  next root params standing =>
    have here : nav.standing? = some root := by simp [standing?, standing]
    simp [here, map_eq_error_iff]
  next other =>
    have gone : nav.standing? = none := by
      cases standing : nav.filter with
      | none => simp [standing?, standing]
      | some f =>
        obtain ⟨_ | root, params⟩ := f
        · simp [standing?, standing]
        · exact absurd standing (other root params)
    simp [gone, eq_comm]

theorem exists_editFilter_error_iff {nav : Navigator} {path : Path} {replacement : Option Predicate} :
    (∃ error, nav.editFilter path replacement = .error error) ↔
      ∀ root, nav.standing? = some root → root.at? path = none := by
  simp only [editFilter_eq_error_iff]
  cases nav.standing? with
  | none => simp
  | some root => simp [Predicate.exists_replaceAt_error_iff]

theorem editFilter_page {nav next : Navigator} {path : Path} {replacement : Option Predicate}
    (edited : nav.editFilter path replacement = .ok next) : next.page = nav.page := by
  obtain ⟨root, params, after, -, -, rfl⟩ := editFilter_eq_ok edited
  rfl

theorem editFilter_cursor {nav next : Navigator} {path : Path} {replacement : Option Predicate}
    (edited : nav.editFilter path replacement = .ok next) : next.cursor = none := by
  obtain ⟨root, params, after, -, -, rfl⟩ := editFilter_eq_ok edited
  rfl

/-- Of all actions only an edit can fail. -/
theorem apply_edit {nav next : Navigator} {path : Path} {replacement : Option Predicate} {effect : Effect}
    (applied : nav.apply (.editFilter path replacement) = .ok (next, effect)) :
    nav.editFilter path replacement = .ok next := by
  obtain ⟨after, edited, same⟩ := map_eq_ok applied
  cases same
  exact edited

theorem apply_edit_eq_error_iff {nav : Navigator} {path : Path} {replacement : Option Predicate} {error : EditError} :
    nav.apply (.editFilter path replacement) = .error error ↔ nav.editFilter path replacement = .error error :=
  map_eq_error_iff

theorem apply_page {nav next : Navigator} {action : Action} {effect : Effect}
    (applied : nav.apply action = .ok (next, effect)) : next.page = nav.page := by
  cases action with
  | editFilter path replacement => exact editFilter_page (apply_edit applied)
  | nextPage => obtain rfl | ⟨token, -, rfl⟩ := apply_nextPage applied <;> rfl
  | previousPage => obtain rfl | ⟨token, -, rfl⟩ := apply_previousPage applied <;> rfl
  | _ => cases applied; rfl

def Action.filters : Action → Bool
  | .setFilter _ => true
  | .clearFilter => true
  | .editFilter _ _ => true
  | _ => false

/-- An action that is not about the filter leaves it. -/
theorem apply_filter {nav next : Navigator} {action : Action} {effect : Effect}
    (applied : nav.apply action = .ok (next, effect)) (other : action.filters = false) :
    next.filter = nav.filter := by
  cases action with
  | setFilter filter => cases other
  | clearFilter => cases other
  | editFilter path replacement => cases other
  | nextPage => obtain rfl | ⟨token, -, rfl⟩ := apply_nextPage applied <;> rfl
  | previousPage => obtain rfl | ⟨token, -, rfl⟩ := apply_previousPage applied <;> rfl
  | _ => cases applied; rfl

end RunQuery.Navigator
