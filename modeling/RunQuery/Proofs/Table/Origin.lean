import RunQuery.Proofs.Table.Question

/-!
Where the cursors of a table come from. A cursor is the token of the page shown when the navigator was turned to
the next or the previous page, and is sent with the filter that stood then. The page shown is the answer to a
request under the same filter, unless the filter was touched since it came: a changed filter takes the cursors
away, but the old page and its tokens stay until the new page is there. So a navigator that is turned only
after the page of its filter has come never sends a token of another result.
-/
namespace RunQuery

/-- The result goes on from this page where the cursor points. -/
def Page.Offers (page : Page) : Cursor → Prop
  | .forward token => page.next = some token
  | .backward token => page.previous = some token

namespace Navigator

/-- The action that takes up a cursor of the page shown. -/
def Action.turning : Cursor → Action
  | .forward _ => .nextPage
  | .backward _ => .previousPage

/-- A cursor stands since the last action, or is taken up from the page shown; either way the filter stays. -/
theorem apply_cursor {nav next : Navigator} {action : Action} {effect : Effect} {c : Cursor}
    (applied : nav.apply action = .ok (next, effect)) (standing : next.cursor = some c) :
    next.filter = nav.filter ∧
      (nav.cursor = some c ∨ action = .turning c ∧ nav.page.Offers c) := by
  cases action with
  | nextPage =>
    obtain rfl | ⟨token, offered, rfl⟩ := apply_nextPage applied
    · exact ⟨rfl, .inl standing⟩
    · cases standing
      exact ⟨rfl, .inr ⟨rfl, offered⟩⟩
  | previousPage =>
    obtain rfl | ⟨token, offered, rfl⟩ := apply_previousPage applied
    · exact ⟨rfl, .inl standing⟩
    · cases standing
      exact ⟨rfl, .inr ⟨rfl, offered⟩⟩
  | editFilter path replacement =>
    rw [editFilter_cursor (apply_edit applied)] at standing
    cases standing
  | setFilter filter => cases applied; cases standing
  | clearFilter => cases applied; cases standing
  | firstPage => cases applied; cases standing
  | setPageSize size => cases applied; cases standing
  | toggleSort column => cases applied; exact ⟨rfl, .inl standing⟩
  | refresh => cases applied; exact ⟨rfl, .inl standing⟩
  | toggleRow id => cases applied; exact ⟨rfl, .inl standing⟩
  | toggleAll => cases applied; exact ⟨rfl, .inl standing⟩

end Navigator

namespace Table

/-- The live request is the one that the navigator would send now. -/
theorem Asking.live {t : Table} {requests : List (Nat × Request)} (asking : Asking t requests)
    (unique : (requests.map Prod.fst).Nodup) {w : Waiting Request} (live : t.desk.live? = some w) :
    (w.ticket.generation, w.work) ∈ requests ∧ w.work = t.view.navigator.toRequest := by
  have found := (Desk.live?_eq_some_iff.mp live).1
  have member := asking.waiting w (Desk.find?_some found).1
  refine ⟨member, ?_⟩
  cases newest : requests.getLast? with
  | none => simp [List.getLast?_eq_none_iff.mp newest] at member
  | some last =>
    have latest := asking.latest last newest
    have key : w.ticket.generation = last.1 := by
      rw [latest]
      exact (Desk.live?_generation live).symm
    have pair := List.inj_on_of_nodup_map unique member (List.mem_of_getLast? newest) key
    exact congrArg Prod.snd (pair.trans latest)

/-- What an event can do to the navigator. -/
theorem handle_navigator (t : Table) (event : Event) :
    let after := (t.handle event).1.view.navigator
    after = t.view.navigator ∨
    (∃ action effect, event = .call action ∧ t.view.navigator.apply action = .ok (after, effect)) ∨
    (∃ w page, event = .reply w.ticket.generation (.ok page) ∧ t.desk.live? = some w ∧
      after = t.view.navigator.withPage page) := by
  intro after
  have turn := t.handle_turn event
  simp only [after]
  generalize (t.handle event).2 = notices at turn
  generalize (t.handle event).1 = later at turn
  cases turn with
  | moved applied => exact .inr (.inl ⟨_, _, rfl, applied⟩)
  | asked applied => exact .inr (.inl ⟨_, _, rfl, applied⟩)
  | loaded live => exact .inr (.inr ⟨_, _, rfl, live, rfl⟩)
  | @dropped w _ _ _ _ => exact .inl (t.settled_navigator w)
  | @expired g => exact .inl (congrArg View.navigator (t.desk.expire_frame g).1)
  | _ => exact .inl rfl

/-- A page that the store has returned for a request. -/
def Returned (begun : Table) (events : List Event) (asked : Request) (page : Page) (since : List Event) : Prop :=
  ∃ before g, events = before ++ .reply g (.ok page) :: since ∧
    (g, asked) ∈ Notice.requests (controller.run begun before).2

/-- The page shown was returned for a request, whose filter still stands unless it was touched since. -/
structure Shown (begun : Table) (events : List Event) (asked : Request) (page : Page) (since : List Event) :
    Prop where
  returned : Returned begun events asked page since
  shown : (controller.run begun events).1.view.navigator.page = page
  filter : asked.filter = (controller.run begun events).1.view.navigator.filter ∨
    ∃ action, .call action ∈ since ∧ action.filters = true

theorem Returned.concat {begun : Table} {events since : List Event} {asked : Request} {page : Page}
    (returned : Returned begun events asked page since) (event : Event) :
    Returned begun (events ++ [event]) asked page (since ++ [event]) := by
  obtain ⟨before, g, rfl, made⟩ := returned
  exact ⟨before, g, by simp, made⟩

/-- Another event leaves the page shown, if it puts no other page in. -/
theorem Shown.concat {begun : Table} {events since : List Event} {asked : Request} {page : Page}
    (old : Shown begun events asked page since) {event : Event}
    (kept : let t := (controller.run begun events).1
      (t.handle event).1.view.navigator.page = t.view.navigator.page ∧
      ((t.handle event).1.view.navigator.filter = t.view.navigator.filter ∨
        ∃ action, event = .call action ∧ action.filters = true)) :
    Shown begun (events ++ [event]) asked page (since ++ [event]) where
  returned := old.returned.concat event
  shown := by
    rw [run_concat]
    exact kept.1.trans old.shown
  filter := by
    rw [run_concat]
    rcases old.filter with same | ⟨action, member, filters⟩
    · rcases kept.2 with still | ⟨action, rfl, filters⟩
      · exact .inl (same.trans still.symm)
      · exact .inr ⟨action, by simp, filters⟩
    · exact .inr ⟨action, List.mem_append_left _ member, filters⟩

theorem run_shown (size : PageSize) (deadline : Option Nat) (events : List Event) :
    let begun := new (.new size) deadline
    (controller.run begun events).1.view.navigator.page = .empty ∨
      ∃ asked page since, Shown begun events asked page since := by
  intro begun
  induction events using List.reverseRecOn with
  | nil => exact .inl rfl
  | append_singleton events event ih =>
    let t := (controller.run begun events).1
    have keep (kept : (t.handle event).1.view.navigator.page = t.view.navigator.page ∧
        ((t.handle event).1.view.navigator.filter = t.view.navigator.filter ∨
          ∃ action, event = .call action ∧ action.filters = true)) :
        (controller.run begun (events ++ [event])).1.view.navigator.page = .empty ∨
          ∃ asked page since, Shown begun (events ++ [event]) asked page since := by
      rcases ih with empty | ⟨asked, page, since, shown⟩
      · rw [run_concat]
        exact .inl (kept.1.trans empty)
      · exact .inr ⟨asked, page, _, shown.concat kept⟩
    rcases t.handle_navigator event with same | ⟨action, effect, rfl, applied⟩ | ⟨w, page, rfl, live, put⟩
    · exact keep ⟨congrArg Navigator.page same, .inl (congrArg Navigator.filter same)⟩
    · refine keep ⟨Navigator.apply_page applied, ?_⟩
      cases filters : action.filters with
      | true => exact .inr ⟨action, rfl, filters⟩
      | false => exact .inl (Navigator.apply_filter applied filters)
    · have numbers := run_requests (.new size) deadline events
      obtain ⟨made, question⟩ := (run_asking (.new size) deadline events).live
        (numbers ▸ List.nodup_range') live
      refine .inr ⟨w.work, page, [], ⟨events, _, rfl, made⟩, ?_, .inl ?_⟩
      · rw [run_concat, put]
        rfl
      · rw [run_concat, put, question]
        rfl

/-- A cursor that stands was taken up from the page shown, under the filter that still stands. -/
theorem run_cursor (size : PageSize) (deadline : Option Nat) (events : List Event) {c : Cursor} :
    let begun := new (.new size) deadline
    (controller.run begun events).1.view.navigator.cursor = some c →
    ∃ before later, events = before ++ .call (.turning c) :: later ∧
      (controller.run begun before).1.view.navigator.page.Offers c ∧
      (controller.run begun before).1.view.navigator.filter =
        (controller.run begun events).1.view.navigator.filter := by
  intro begun
  induction events using List.reverseRecOn with
  | nil => exact fun standing => nomatch standing
  | append_singleton events event ih =>
    rw [run_concat]
    intro standing
    let t := (controller.run begun events).1
    have keep (old : t.view.navigator.cursor = some c)
        (filter : (t.handle event).1.view.navigator.filter = t.view.navigator.filter) :
        ∃ before later, events ++ [event] = before ++ .call (.turning c) :: later ∧
          (controller.run begun before).1.view.navigator.page.Offers c ∧
          (controller.run begun before).1.view.navigator.filter =
            (t.handle event).1.view.navigator.filter := by
      obtain ⟨before, later, split, offered, same⟩ := ih old
      exact ⟨before, later ++ [event], by simp [split], offered, same.trans filter.symm⟩
    rcases t.handle_navigator event with same | ⟨action, effect, rfl, applied⟩ | ⟨w, page, rfl, live, put⟩
    · exact keep (same ▸ standing) (congrArg Navigator.filter same)
    · obtain ⟨filter, old | ⟨rfl, offered⟩⟩ := Navigator.apply_cursor applied standing
      · exact keep old filter
      · exact ⟨events, [], rfl, offered, filter.symm⟩
    · rw [put] at standing
      exact keep standing (put ▸ rfl)

/-- A request is that of the navigator at the moment when it was made. -/
theorem run_request_made (begun : Table) (events : List Event) {g : Nat} {request : Request}
    (made : (g, request) ∈ Notice.requests (controller.run begun events).2) :
    ∃ before later, events = before ++ later ∧
      request = (controller.run begun before).1.view.navigator.toRequest := by
  induction events using List.reverseRecOn with
  | nil => cases made
  | append_singleton events event ih =>
    simp only [run_concat, Notice.requests_append, List.mem_append] at made
    rcases made with early | now
    · obtain ⟨before, later, split, question⟩ := ih early
      exact ⟨before, later ++ [event], by simp [split], question⟩
    · refine ⟨events ++ [event], [], (List.append_nil _).symm, ?_⟩
      rcases (handle_turn _ event).requests with ⟨none, -⟩ | ⟨action, next, -, -, asked, one⟩
      · rw [none] at now
        cases now
      · rw [one, List.mem_singleton] at now
        rw [run_concat, asked, (Prod.mk.inj now).2]
        rfl

/-- No token of the result of another filter is sent. -/
def CursorsFresh (begun : Table) (events : List Event) : Prop :=
  ∀ g request c, (g, request) ∈ Notice.requests (controller.run begun events).2 → request.cursor = some c →
    ∃ asked page since, Returned begun events asked page since ∧ page.Offers c ∧ asked.filter = request.filter

/-- A cursor that is sent was taken up from the page shown by turning to the next or the previous page. That
page was returned for a request under the same filter, unless the filter was touched between the page and the
turning. So if nobody turns a page before the answer to a touched filter has come, all cursors are fresh,
whatever replies, failures, deadlines and cancellations come and when. -/
theorem cursor_is_of_page_shown (size : PageSize) (deadline : Option Nat) (events : List Event) :
    let begun := new (.new size) deadline
    (∀ g request c, (g, request) ∈ Notice.requests (controller.run begun events).2 →
      request.cursor = some c →
      ∃ before later asked page since, events = before ++ .call (.turning c) :: later ∧
        Shown begun before asked page since ∧ page.Offers c ∧
        (asked.filter = request.filter ∨ ∃ action, .call action ∈ since ∧ action.filters = true)) ∧
    ((∀ before c later asked page since, events = before ++ .call (.turning c) :: later →
        Shown begun before asked page since → ∀ action, .call action ∈ since → action.filters = false) →
      CursorsFresh begun events) := by
  intro begun
  have origin (g : Nat) (request : Request) (c : Cursor)
      (made : (g, request) ∈ Notice.requests (controller.run begun events).2)
      (carried : request.cursor = some c) :
      ∃ before later asked page since, events = before ++ .call (.turning c) :: later ∧
        Shown begun before asked page since ∧ page.Offers c ∧
        (asked.filter = request.filter ∨ ∃ action, .call action ∈ since ∧ action.filters = true) := by
    obtain ⟨early, late, rfl, rfl⟩ := run_request_made begun events made
    obtain ⟨before, later, rfl, offered, filter⟩ := run_cursor size deadline early carried
    rcases run_shown size deadline before with empty | ⟨asked, page, since, shown⟩
    · rw [empty] at offered
      cases c <;> cases offered
    · exact ⟨before, later ++ late, asked, page, since, by simp, shown, shown.shown ▸ offered,
        shown.filter.imp_left fun same => same.trans filter⟩
  refine ⟨origin, fun patient g request c made carried => ?_⟩
  obtain ⟨before, later, asked, page, since, split, shown, offered, same | ⟨action, member, filters⟩⟩ :=
    origin g request c made carried
  · obtain ⟨first, k, whole, early⟩ := shown.returned
    refine ⟨asked, page, since ++ .call (.turning c) :: later, ⟨first, k, ?_, early⟩, offered, same⟩
    rw [split, whole, List.append_assoc, List.cons_append]
  · rw [patient before c later asked page since split shown action member] at filters
    cases filters

/-- The first page is turned, so that its token is sent. -/
theorem cursor_is_of_page_shown_turned :
    let begun := new (.new default) none
    let events : List Event := [.call .refresh, .reply 1 (.ok ⟨[], some "t", none⟩), .call .nextPage]
    (∃ g request, (g, request) ∈ Notice.requests (controller.run begun events).2 ∧
      request.cursor = some (.forward "t")) ∧ CursorsFresh begun events := by
  intro begun events
  refine ⟨⟨2, ⟨none, [], some 3, some (.forward "t")⟩, List.mem_cons_of_mem _ List.mem_cons_self, rfl⟩,
    (cursor_is_of_page_shown default none events).2 ?_⟩
  rintro before c later asked page since split ⟨⟨first, g, rfl, -⟩, -, -⟩ action member
  simp [events, List.append_assoc, List.cons_eq_append_iff, List.append_eq_cons_iff] at split
  obtain ⟨-, -, rfl, -⟩ := split
  cases member

/-- A filter is set whose page does not come, and then the old page is turned. -/
theorem stale_cursor_after_failed_filter :
    let filter : Filter := ⟨some (.compare ⟨"status", .eq, .literal (.text "ok")⟩), .empty⟩
    ¬ CursorsFresh (new (.new default) none)
      [.call .refresh, .reply 1 (.ok ⟨[], some "t", none⟩), .call (.setFilter filter),
        .reply 2 (.error ["down"]), .call .nextPage] := by
  intro filter fresh
  obtain ⟨asked, page, since, ⟨before, g, split, made⟩, -, same⟩ :=
    fresh 3 ⟨some filter, [], some 3, some (.forward "t")⟩ (.forward "t")
      (List.mem_cons_of_mem _ (List.mem_cons_of_mem _ List.mem_cons_self)) rfl
  simp [List.cons_eq_append_iff] at split
  obtain ⟨rfl, -, -⟩ := split
  have first : (g, asked) ∈ [(1, (⟨none, [], some 3, none⟩ : Request))] := made
  cases List.mem_singleton.mp first
  cases same

end Table

end RunQuery
