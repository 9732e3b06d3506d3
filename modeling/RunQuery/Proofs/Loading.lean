import RunQuery.Proofs.Calendar.Joined
import RunQuery.Proofs.Calendar.Records
import RunQuery.Proofs.Table.Outcome

/-!
When tables, names and calendars show that they are loading: exactly while the latest of the requests that they
stand for is on its way. So nothing is loading when every call is done.
-/
namespace RunQuery

namespace Notice

variable {κ ρ : Type}

/-- The call that was started last is not done. -/
def LatestPending (notices : List (Notice κ ρ)) : Prop :=
  ∃ g, (calls notices).getLast? = some g ∧ g ∉ ended notices

/-- Every call is done. -/
def Idle (notices : List (Notice κ ρ)) : Prop := ∀ g, ¬ Pending notices g

end Notice

namespace Desk.Accounts

variable {σ ω κ ρ : Type} {Sign : Slot σ → Bool → Prop} {d : Desk σ ω} {notices : List (Notice κ ρ)}

/-- The request of the latest call waits while that call is not done. -/
theorem waits_iff (accounts : d.Accounts Sign notices) :
    d.slot.generation ∈ d.generations ↔ Notice.LatestPending notices := by
  rw [← accounts.pending_iff, Notice.Pending, Notice.LatestPending, accounts.numbered, List.getLast?_range',
    List.mem_range'_1]
  cases d.slot.generation with
  | zero => simp
  | succ last => simp

theorem idle (accounts : d.Accounts Sign notices) (idle : Notice.Idle notices) : Sign d.slot false := by
  have sign := accounts.sign
  rwa [decide_eq_false fun waits => idle _ (accounts.pending_iff.mpr waits)] at sign

end Desk.Accounts

/-- A table and its slot show that they are loading exactly while the call of the latest request is not
done. -/
structure Table.TellsLoading (t : Table) (notices : List (Notice Nat Result)) : Prop where
  view : t.view.loading = true ↔
    ∃ g request, (Notice.requests notices).getLast? = some (g, request) ∧ g ∉ Notice.ended notices
  slot : t.desk.slot.inFlight = true ↔
    ∃ g request, (Notice.requests notices).getLast? = some (g, request) ∧ g ∉ Notice.ended notices
  idle : Notice.Idle notices → t.view.loading = false ∧ t.desk.slot.inFlight = false

theorem Table.run_tellsLoading (navigator : Navigator) (deadline : Option Nat) (events : List Event) :
    let told := controller.run (new navigator deadline) events
    TellsLoading told.1 told.2 := by
  intro told
  have accounts : told.1.desk.Accounts Sign told.2 := run_accounts navigator deadline events
  have calls : Notice.calls told.2 = (Notice.requests told.2).map Prod.fst :=
    accounts.numbered.trans (run_requests navigator deadline events).symm
  have latest : told.1.desk.slot.generation ∈ told.1.desk.generations ↔
      ∃ g request, (Notice.requests told.2).getLast? = some (g, request) ∧ g ∉ Notice.ended told.2 := by
    rw [accounts.waits_iff, Notice.LatestPending, calls, List.getLast?_map]
    simp [Option.map_eq_some_iff]
  obtain ⟨loading, flight⟩ := accounts.sign
  constructor
  · rw [← latest, Table.view, Desk.state, loading, decide_eq_true_iff]
  · rw [← latest, flight, decide_eq_true_iff]
  · exact accounts.idle

/-- Names show that they are loading exactly while the latest load is not done. -/
structure Names.TellsLoading (n : Names) (notices : List (Notice Nat Result)) : Prop where
  status : n.state.status = .loading ↔ Notice.LatestPending notices
  idle : Notice.Idle notices → n.state.status ≠ .loading

theorem Names.tellsLoading {n : Names} {notices : List (Notice Nat Result)}
    (accounts : n.desk.Accounts Sign notices) : TellsLoading n notices where
  status := accounts.sign.trans (decide_eq_true_iff.trans accounts.waits_iff)
  idle idle loading := Bool.false_ne_true ((accounts.idle idle).mp loading)

/-- A calendar shows that it is loading exactly while its latest fetch has sources and is not done. The fetches
are in the ledger; what is said of them and of the loads of names comes from the runs and from the names. -/
structure Calendar.TellsLoading (c : Calendar) (said : Notices) (ledger : Ledger)
    (fetches : List (Notice Nat Runs.Result)) (loads : List (Notice Nat Names.Result)) : Prop where
  numbered : Notice.calls fetches = List.range' 1 ledger.length
  runs : c.state.loading = true ↔
    ∃ last, ledger.head? = some last ∧ last.sources ≠ [] ∧ ledger.length ∉ Notice.ended fetches
  names : c.names.TellsLoading loads
  idle : Notice.Idle said → c.state.loading = false ∧ c.names.state.status ≠ .loading

theorem Calendar.Books.tellsLoading {config : CalendarConfig} {c : Calendar} {said : Notices} {ledger : Ledger}
    {fetches : List (Notice Nat Runs.Result)} {loads : List (Notice Nat Names.Result)}
    (books : Books c said fetches loads) (keeps : Keeps config c.runs ledger) :
    TellsLoading c said ledger fetches loads := by
  have ⟨loading, sources⟩ := books.runs.sign
  have numbered : Notice.calls fetches = List.range' 1 ledger.length := keeps.count ▸ books.runs.numbered
  have latest : c.runs.desk.slot.generation ∈ c.runs.desk.generations ↔ Notice.Pending fetches ledger.length :=
    keeps.count ▸ books.runs.pending_iff.symm
  refine ⟨numbered, ?_, Names.tellsLoading books.names, fun idle => ?_⟩
  · rw [state, Runs.state, Desk.state, loading, decide_eq_true_iff]
    constructor
    · intro waits
      obtain ⟨entered, unfinished⟩ := latest.mp waits
      cases ledger with
      | nil => simp [numbered] at entered
      | cons last earlier =>
        have same := keeps.shows.sources last rfl
        exact ⟨last, rfl, same ▸ sources (decide_eq_true waits), unfinished⟩
    · rintro ⟨last, newest, _, unfinished⟩
      have entered : 0 < ledger.length := List.length_pos_of_mem (List.mem_of_mem_head? newest)
      refine latest.mpr ⟨?_, unfinished⟩
      rw [numbered, List.mem_range'_1]
      omega
  · -- for whatever is on its way a call waits
    have noFetch : Notice.Idle fetches := fun g pending => by
      obtain ⟨j, member, _⟩ := books.fetches g (books.runs.pending_iff.mp pending)
      exact idle _ (books.pending member)
    have noLoad : Notice.Idle loads := fun g pending => by
      obtain ⟨j, member, _⟩ := books.loads g (books.names.pending_iff.mp pending)
      exact idle _ (books.pending member)
    exact ⟨(books.runs.idle noFetch).1, (Names.tellsLoading books.names).idle noLoad⟩

/-- Loading is never stuck and never cleared early, whatever calls, replies, cancellations and deadlines come in
what order: of tables, of names and of calendars. When no call is pending nothing is loading. -/
theorem loading_while_latest_pending :
    (∀ (navigator : Navigator) (deadline : Option Nat) (events : List Table.Event),
      let told := Table.controller.run (.new navigator deadline) events
      told.1.TellsLoading told.2) ∧
    (∀ (config : NamesConfig) (events : List Names.Event),
      let told := Names.controller.run (.new config) events
      told.1.TellsLoading told.2) ∧
    (∀ (config : CalendarConfig) (deadline : Option Nat) (events : List Calendar.Event),
      let begun := Calendar.new config deadline
      let told := Calendar.controller.run begun events
      told.1.TellsLoading told.2 (Calendar.Ledger.follow config [] events) (begun.saidByRuns events)
        (begun.saidByNames events)) := by
  refine ⟨Table.run_tellsLoading, fun config events => ?_, fun config deadline events => ?_⟩
  · exact Names.tellsLoading (Names.run_accounts config events).2
  · exact (Calendar.run_books config deadline events).tellsLoading (Calendar.run_keeps config deadline events).1

/-- A fetch without sources is done at once, and takes the place of one that waits. -/
example :
    let span : Span := ⟨0, 1, by decide⟩
    let c := (Calendar.controller.run (.new default none) [.fetch ["a"] span, .fetch [] span]).1
    c.state.loading = false ∧ c.runs.desk.generations = [1] := by decide

end RunQuery
