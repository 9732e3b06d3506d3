import RunQuery.Proofs.Navigator.Moves
import RunQuery.Proofs.Predicate.Conjoin
import RunQuery.Proofs.Predicate.Edit
import RunQuery.Proofs.Sort

/-!
What holds of a navigator after any moves. Its cursor is a token of a page that has come, its selection copies of
records that have come; its filter stays collapsed and its sort has each column once. Each action rebuilds a part of
the state only, so each field of `Sound` is touched by few of them. Actions that change what the result is, or how it
is cut into pages, take the cursors away.
-/
namespace RunQuery.Navigator

def Move.page? : Move → Option Page
  | .act _ => none
  | .load page => some page

/-- The pages that have come. -/
def loaded (moves : List Move) : List Page := moves.filterMap Move.page?

theorem loaded_cons (m : Move) (rest : List Move) : loaded (m :: rest) = m.page?.toList ++ loaded rest := by
  cases m <;> rfl

/-- A filter that is set is collapsed; of all other moves nothing is asked. -/
def Move.Collapsed : Move → Prop
  | .act (.setFilter filter) => Filter.Collapsed (some filter)
  | _ => True

/-- Actions that start again at the first page. -/
def Action.restarts : Action → Bool
  | .setFilter _ => true
  | .clearFilter => true
  | .editFilter _ _ => true
  | .firstPage => true
  | .setPageSize _ => true
  | _ => false

/-- What holds of a navigator when some pages have come. -/
structure Sound (pages : List Page) (nav : Navigator) : Prop where
  oneCursor : nav.forward = none ∨ nav.backward = none
  forward : ∀ token ∈ nav.forward, ∃ page ∈ pages, page.next = some token
  backward : ∀ token ∈ nav.backward, ∃ page ∈ pages, page.previous = some token
  shown : nav.page = .empty ∨ nav.page ∈ pages
  filter : Filter.Collapsed nav.filter
  sort : nav.sort.Distinct
  /-- A record is selected under its own id, and came with some page. -/
  selection : ∀ entry ∈ nav.selection.entries, entry.1 = entry.2.id ∧ ∃ page ∈ pages, entry.2 ∈ page.records

theorem new_sound (size : PageSize) : Sound [] (new size) where
  oneCursor := .inl rfl
  forward := nofun
  backward := nofun
  shown := .inl rfl
  filter := nofun
  sort := List.nodup_nil
  selection := nofun

section Step

variable {pages : List Page} {nav : Navigator}

/-- More pages may have come. -/
theorem Sound.mono (sound : Sound pages nav) {more : List Page} (subset : pages ⊆ more) : Sound more nav where
  oneCursor := sound.oneCursor
  forward token standing := by
    obtain ⟨page, member, offered⟩ := sound.forward token standing
    exact ⟨page, subset member, offered⟩
  backward token standing := by
    obtain ⟨page, member, offered⟩ := sound.backward token standing
    exact ⟨page, subset member, offered⟩
  shown := sound.shown.imp_right fun member => subset member
  filter := sound.filter
  sort := sound.sort
  selection entry member := by
    obtain ⟨own, page, come, inside⟩ := sound.selection entry member
    exact ⟨own, page, subset come, inside⟩

theorem Sound.withPage (sound : Sound pages nav) (page : Page) : Sound (pages ++ [page]) (nav.withPage page) :=
  { sound.mono (List.subset_append_left pages [page]) with
    shown := .inr (List.mem_append_right pages (List.mem_singleton_self page)) }

theorem Sound.withoutCursors (sound : Sound pages nav) : Sound pages nav.withoutCursors :=
  { sound with oneCursor := .inl rfl, forward := nofun, backward := nofun }

/-- What is on the page shown has come with it. -/
theorem Sound.of_mem_page (sound : Sound pages nav) {r : Record} (member : r ∈ nav.page.records) :
    ∃ page ∈ pages, r ∈ page.records := by
  rcases sound.shown with empty | come
  · rw [empty] at member
    cases member
  · exact ⟨nav.page, come, member⟩

/-- A token of the page shown has come with it. -/
theorem Sound.of_offered (sound : Sound pages nav) {token : String} {side : Page → Option String}
    (none : side .empty = none) (offered : side nav.page = some token) : ∃ page ∈ pages, side page = some token := by
  rcases sound.shown with empty | come
  · rw [empty, none] at offered
    cases offered
  · exact ⟨nav.page, come, offered⟩

theorem Sound.editFilter (sound : Sound pages nav) {next : Navigator} {path : Path} {replacement : Option Predicate}
    (edited : nav.editFilter path replacement = .ok next) : Sound pages next := by
  obtain ⟨root, params, after, standing, replaced, rfl⟩ := editFilter_eq_ok edited
  have collapsed : root.Collapsed := sound.filter _ standing root rfl
  refine { sound.withoutCursors with filter := ?_ }
  rintro f kept
  obtain ⟨p, left, rfl⟩ := Option.map_eq_some_iff.mp kept
  rintro q ⟨⟩
  exact Predicate.replaceAt_collapsed collapsed replaced p left

theorem Sound.toggleRow (sound : Sound pages nav) (id : String) : Sound pages (nav.toggleRow id) := by
  refine { sound with selection := ?_ }
  unfold Navigator.toggleRow
  intro entry member
  dsimp only at member
  split at member
  · exact sound.selection entry (List.mem_filter.mp member).1
  · split at member
    next record found =>
      rcases Entries.mem_insert member with rfl | old
      · exact ⟨rfl, sound.of_mem_page (List.mem_of_find?_eq_some found)⟩
      · exact sound.selection entry old
    next => exact sound.selection entry member

theorem Sound.toggleAll (sound : Sound pages nav) : Sound pages nav.toggleAll := by
  refine { sound with selection := ?_ }
  unfold Navigator.toggleAll
  intro entry member
  dsimp only at member
  split at member
  · obtain ⟨r, inside, rfl⟩ := List.mem_map.mp (Dict.mem_ofList member)
    exact ⟨rfl, sound.of_mem_page inside⟩
  · cases member

theorem Sound.apply (sound : Sound pages nav) {action : Action} {next : Navigator} {effect : Effect}
    (collapsed : (Move.act action).Collapsed) (applied : nav.apply action = .ok (next, effect)) :
    Sound pages next := by
  cases action with
  | setFilter filter =>
    cases applied
    exact { sound.withoutCursors with filter := sound.filter.conjoin collapsed }
  | clearFilter =>
    cases applied
    exact { sound.withoutCursors with filter := nofun }
  | editFilter path replacement => exact sound.editFilter (apply_edit applied)
  | toggleSort column =>
    cases applied
    exact { sound with sort := sound.sort.toggle column }
  | nextPage =>
    obtain rfl | ⟨token, offered, rfl⟩ := apply_nextPage applied
    · exact sound
    · refine { sound with oneCursor := .inr rfl, forward := ?_, backward := nofun }
      rintro _ ⟨⟩
      exact sound.of_offered rfl offered
  | previousPage =>
    obtain rfl | ⟨token, offered, rfl⟩ := apply_previousPage applied
    · exact sound
    · refine { sound with oneCursor := .inl rfl, forward := nofun, backward := ?_ }
      rintro _ ⟨⟩
      exact sound.of_offered rfl offered
  | firstPage =>
    cases applied
    exact sound.withoutCursors
  | setPageSize size =>
    cases applied
    exact { sound.withoutCursors with }
  | refresh =>
    cases applied
    exact sound
  | toggleRow id =>
    cases applied
    exact sound.toggleRow id
  | toggleAll =>
    cases applied
    exact sound.toggleAll

theorem Sound.move (sound : Sound pages nav) {m : Move} (collapsed : m.Collapsed) :
    Sound (pages ++ m.page?.toList) (nav.move m) := by
  cases m with
  | act action =>
    rw [Move.page?, Option.toList_none, List.append_nil]
    cases applied : nav.apply action with
    | error e => rwa [move_of_error applied]
    | ok moved =>
      rw [move_of_ok applied]
      exact sound.apply collapsed applied
  | load page => exact sound.withPage page

/-- The moves after some others, with the pages that have come before them. -/
theorem Sound.replay (sound : Sound pages nav) {moves : List Move} (collapsed : ∀ m ∈ moves, m.Collapsed) :
    Sound (pages ++ loaded moves) (nav.replay moves) := by
  induction moves generalizing pages nav with
  | nil =>
    rw [loaded, List.filterMap_nil, List.append_nil]
    exact sound
  | cons m rest ih =>
    rw [List.forall_mem_cons] at collapsed
    rw [loaded_cons, ← List.append_assoc]
    exact ih (sound.move collapsed.1) collapsed.2

/-- An action that starts again leaves no cursor. -/
theorem apply_restarts {action : Action} {next : Navigator} {effect : Effect} (restarts : action.restarts = true)
    (applied : nav.apply action = .ok (next, effect)) : next.toRequest.cursor = none := by
  cases action with
  | setFilter filter => cases applied; rfl
  | clearFilter => cases applied; rfl
  | editFilter path replacement => exact editFilter_cursor (apply_edit applied)
  | firstPage => cases applied; rfl
  | setPageSize size => cases applied; rfl
  | _ => cases restarts

end Step

/-- After any moves, with collapsed filters set in them, a navigator is sound with the pages that have come; and the
request that it sends right after an action that starts again has no cursor. -/
theorem reached_state_sound (size : PageSize) (moves : List Move) (collapsed : ∀ m ∈ moves, m.Collapsed) :
    let nav := (new size).replay moves
    Sound (loaded moves) nav ∧
    ∀ action next effect, action.restarts = true → nav.apply action = .ok (next, effect) →
      next.toRequest.cursor = none := by
  intro nav
  constructor
  · simpa using (new_sound size).replay collapsed
  · intro action next effect restarts applied
    exact apply_restarts restarts applied

/-- A page is turned under a filter of three, one of which is then edited away, with a record still selected that is
no longer shown. -/
theorem reached_state_sound_after_turn :
    let leaf (location : String) : Predicate := .compare ⟨location, .eq, .bind location⟩
    let record : Record := ⟨"r", "run", 1, .none⟩
    let moves : List Move := [.act (.setFilter (.ofPredicate (.and [leaf "a", leaf "b", leaf "c"]))),
      .load ⟨[record], some "t", none⟩, .act .toggleAll, .act (.toggleSort "a"), .act .nextPage,
      .load ⟨[], none, some "s"⟩]
    let nav := (new default).replay moves
    (∀ m ∈ moves, m.Collapsed) ∧ Sound (loaded moves) nav ∧ nav.cursor = some (.forward "t") ∧
    nav.selection.entries = [("r", record)] ∧
    ∃ next, nav.apply (.editFilter [1] (some (.or []))) = .ok (next, .reload) ∧ next.toRequest.cursor = none ∧
      next.filter.bind Filter.predicate = some (.and [leaf "a", leaf "c"]) := by
  intro leaf record moves nav
  have collapsed : ∀ m ∈ moves, m.Collapsed := by
    simp [moves, leaf, Move.Collapsed, Filter.Collapsed, Filter.ofPredicate, Predicate.Collapsed,
      Predicate.AllCollapsed]
  obtain ⟨sound, restarted⟩ := reached_state_sound default moves collapsed
  exact ⟨collapsed, sound, rfl, rfl, _, rfl, restarted (.editFilter [1] (some (.or []))) _ .reload rfl rfl, rfl⟩

end RunQuery.Navigator
