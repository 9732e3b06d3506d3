import RunQuery.Proofs.Names.Ledger

/-!
What names are known, and when a listing is asked for. Names last through loads that are on their way or
superseded, and all of them are replaced when a reply is taken; but a failure is a reply too, and replaces them by
none. On demand, names are loaded once: neither while a load is on its way nor after a listing, and not after a
failure either.
-/
namespace RunQuery.Names

/-- What is known are the names of the listing that was taken last, unless a later load has failed, after which
nothing is known. An event leaves all names as they are, or it is the reply to the latest load, which is on its way,
and replaces all of them at once. Loads are numbered as they are asked for, and all ask for the same listing. -/
theorem names_last_until_reply_taken (config : NamesConfig) (events : List Event) :
    let told := controller.run (new config) events
    let ledger := Ledger.follow [] events
    Notice.requests told.2 = (List.range' 1 ledger.length).map (fun g => (g, listing config)) ∧
    (∀ page, ledger.listed? = some page → (∀ causes, ledger.latest? ≠ some (.error causes)) →
      ∀ id, told.1.state.name? id = givenName? config page id) ∧
    (∀ causes, ledger.latest? = some (.error causes) → ∀ id, told.1.state.name? id = none) ∧
    (ledger.latest? = none → ∀ id, told.1.state.name? id = none) ∧
    (∀ event, let next := (told.1.handle event).1.state
      next.names = told.1.state.names ∨
      ∃ reply, event = .reply ledger.length reply ∧ ledger.Awaits ∧
        (∀ page, reply = .ok page → ∀ id, next.name? id = givenName? config page id) ∧
        (∀ causes, reply = .error causes → ∀ id, next.name? id = none)) := by
  intro told ledger
  obtain ⟨sound, keeps⟩ := run_keeps config events
  have listed {s : State} {l : Ledger} (names : s.names = l.names config) {page : Page}
      (latest : l.latest? = some (.ok page)) (id : String) : s.name? id = givenName? config page id := by
    rw [State.name?, names, Ledger.names, latest]
    exact get?_ofPage config page id
  have empty {s : State} {l : Ledger} (names : s.names = l.names config)
      (latest : ∀ page, l.latest? ≠ some (.ok page)) (id : String) : s.name? id = none := by
    rw [State.name?, names, Ledger.names]
    split
    next page some => exact absurd some (latest page)
    next => rfl
  refine ⟨keeps.requests, fun page some none => listed keeps.names (Ledger.latest?_of_listed? some none),
    fun causes failed => empty keeps.names (by simp [ledger, failed]),
    fun nothing => empty keeps.names (by simp [ledger, nothing]), ?_⟩
  intro event next
  have turn := handle_turn told.1 event
  have later := keeps_of_turn turn sound keeps
  rcases ledger.latest?_after event with same | ⟨reply, own, awaits, taken⟩
  · refine .inl (later.names.trans ?_)
    rw [keeps.names, Ledger.names, Ledger.names, same]
  · refine .inr ⟨reply, own, awaits, ?_, ?_⟩
    · rintro page rfl
      exact listed later.names taken
    · rintro causes rfl
      exact empty later.names (by rw [taken]; nofun)

/-- A refresh that fails takes away the name that the listing before it gave. -/
theorem names_lost_by_failed_refresh :
    let listing : Page := ⟨[⟨"w", "workflow", 1, .map [("name", .text "Alpha")]⟩], none, none⟩
    let events : List Event := [.ensure, .reply 1 (.ok listing), .refresh, .reply 2 (.error ["down"])]
    (Ledger.follow [] events).listed? = some listing ∧ givenName? default listing "w" = some "Alpha" ∧
      (controller.run (new default) events).1.state.name? "w" = none := by
  refine ⟨rfl, by decide, rfl⟩

/-- No load is on its way, and the reply that was taken last, if there is one, was a failure. -/
def Ledger.Lacks (ledger : Ledger) : Prop := ¬ ledger.Awaits ∧ ∀ page, ledger.latest? ≠ some (.ok page)

theorem Ledger.lacks_iff {ledger : Ledger} :
    ledger.Lacks ↔ ledger.status ≠ .loading ∧ ledger.status ≠ .loaded := by
  match ledger with
  | [] => simp [Lacks, Awaits, latest?, status]
  | none :: _ => simp [Lacks, Awaits, status]
  | some (.ok _) :: _ => simp [Lacks, Awaits, latest?, status]
  | some (.error _) :: _ => simp [Lacks, Awaits, latest?, status]

/-- It is a call that loads names, be it only on demand. -/
def Event.loads : Event → Bool
  | .ensure => true
  | .refresh => true
  | _ => false

/-- Only a call enters a load. -/
theorem Ledger.after_eq_nil_iff (ledger : Ledger) (event : Event) :
    ledger.after event = [] ↔ ledger = [] ∧ event.loads = false := by
  match event, ledger with
  | .ensure, [] => simp [after, Event.loads]
  | .ensure, _ :: _ => simp [after]
  | .refresh, _ => simp [after, Event.loads]
  | .wake _, _ => simp [after, Event.loads]
  | .reply _ _, [] => simp [after, note, Event.loads]
  | .reply _ _, some _ :: _ => simp [after, note]
  | .reply g _, none :: earlier =>
    simp only [after, note]
    split <;> simp

theorem Ledger.follow_eq_nil_iff {events : List Event} :
    Ledger.follow [] events = [] ↔ events.any Event.loads = false := by
  induction events using List.reverseRecOn with
  | nil => simp [follow]
  | append_singleton events event ih =>
    rw [follow_concat, after_eq_nil_iff, ih, List.any_append, Bool.or_eq_false_iff, List.any_cons, List.any_nil,
      Bool.or_false]

/-- The status that shows a failure. -/
theorem Ledger.status_eq_failed_iff {ledger : Ledger} :
    ledger.status = .failed ↔ ¬ ledger.Awaits ∧ ∃ causes, ledger.latest? = some (.error causes) := by
  match ledger with
  | [] => simp [Awaits, latest?, status]
  | none :: _ => simp [Awaits, status]
  | some (.ok _) :: _ => simp [Awaits, latest?, status]
  | some (.error _) :: _ => simp [Awaits, latest?, status]

/-- On demand, a listing is asked for by the first call of all, and never again. So it is asked for only when no load
is on its way and none has brought a listing; and whenever that is so, but after a failure, which the demand takes
for a load that is done with. -/
theorem ensure_asks_first (config : NamesConfig) (events : List Event) :
    let n := (controller.run (new config) events).1
    let ledger := Ledger.follow [] events
    let asked := Notice.requests (n.handle .ensure).2
    asked = (if events.any Event.loads then [] else [(1, listing config)]) ∧
    (ledger.Lacks ↔ n.state.status ≠ .loading ∧ n.state.status ≠ .loaded) ∧
    (asked ≠ [] → ledger.Lacks) ∧
    (n.state.status ≠ .failed → (asked ≠ [] ↔ ledger.Lacks)) ∧
    (n.state.status = .failed ↔ ¬ ledger.Awaits ∧ ∃ causes, ledger.latest? = some (.error causes)) := by
  intro n ledger asked
  obtain ⟨sound, keeps⟩ := run_keeps config events
  have later := keeps_of_turn (n.handle_turn .ensure) sound keeps
  have whole : Notice.requests (controller.run (new config) events).2 ++ asked = _ :=
    (Notice.requests_append ..).symm.trans later.requests
  have first : asked = if events.any Event.loads then [] else [(1, listing config)] := by
    rw [keeps.requests] at whole
    cases loaded : events.any Event.loads with
    | false =>
      rw [Ledger.follow_eq_nil_iff.mpr loaded] at whole
      exact whole
    | true =>
      have entered : ledger.isEmpty = false := by
        rw [List.isEmpty_eq_false_iff, ne_eq, Ledger.follow_eq_nil_iff, loaded]
        nofun
      have still : ledger.after .ensure = ledger := if_neg (by simp [entered])
      rw [still] at whole
      exact List.append_right_eq_self.mp whole
  have fresh : asked ≠ [] ↔ ledger.status = .notLoaded := by
    rw [Ledger.status_eq_notLoaded_iff, Ledger.follow_eq_nil_iff, first]
    cases events.any Event.loads <;> simp
  rw [keeps.status]
  refine ⟨first, Ledger.lacks_iff, fun some => ?_, fun unfailed => ?_, Ledger.status_eq_failed_iff⟩
  · rw [Ledger.lacks_iff, fresh.mp some]
    exact ⟨nofun, nofun⟩
  · rw [Ledger.lacks_iff, fresh]
    change ledger.status ≠ .failed at unfailed
    revert unfailed
    cases ledger.status <;> simp

/-- After a load that failed no listing is known and none is on its way, and yet none is asked for on demand. -/
theorem failed_load_stays_failed :
    let events : List Event := [.ensure, .reply 1 (.error ["down"])]
    (Ledger.follow [] events).Lacks ∧
      Notice.requests ((controller.run (new default) events).1.handle .ensure).2 = [] := by
  exact ⟨⟨nofun, nofun⟩, rfl⟩

end RunQuery.Names
