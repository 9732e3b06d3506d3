import RunQuery.Proofs.Dict
import RunQuery.Proofs.Names.Turn

/-!
The loads of names, written down: each with the reply that was taken for it. A ledger knows no tickets and no status.
Only the latest load can get a reply, and it gets one; an earlier load without a reply was superseded. Names and
status are read off the ledger: the names from the reply that was taken last, the status from the latest load.
-/
namespace RunQuery.Names

/-- The name that a listing gives for an id: that of the last of its records with this id that has one. -/
def givenName? (config : NamesConfig) (page : Page) (id : String) : Option String :=
  (page.records.reverse.filter fun r => r.id = id).findSome? fun r =>
    (r.field? config.nameField).bind Value.asText?

theorem get?_ofPage (config : NamesConfig) (page : Page) (id : String) :
    (ofPage config page).get? id = givenName? config page id := by
  obtain ⟨records, next, previous⟩ := page
  induction records using List.reverseRecOn with
  | nil => rfl
  | append_singleton records r ih =>
    simp only [ofPage, givenName?, List.reverse_append, List.reverse_singleton, List.singleton_append,
      List.filterMap_append] at ih ⊢
    cases name : (r.field? config.nameField).bind Value.asText? with
    | none =>
      simp only [List.filterMap_cons, List.filterMap_nil, name, Option.map_none, List.append_nil, ih]
      by_cases own : r.id = id <;> simp [own, name]
    | some text =>
      simp only [List.filterMap_cons, List.filterMap_nil, name, Option.map_some, Dict.ofList_concat,
        Dict.get?_insert, ih]
      by_cases own : r.id = id <;> simp [own, name]

/-- The replies that were taken, the latest load first; the first load has number one. -/
abbrev Ledger := List (Option (Reply Page))

namespace Ledger

/-- A reply is taken if its load is the latest one and has none yet. -/
def note (g : Nat) (reply : Reply Page) : Ledger → Ledger
  | none :: earlier => if g = earlier.length + 1 then some reply :: earlier else none :: earlier
  | ledger => ledger

/-- Names are loaded once on demand, and whenever they are refreshed. -/
def after (ledger : Ledger) : Event → Ledger
  | .ensure => if ledger.isEmpty then [none] else ledger
  | .refresh => none :: ledger
  | .reply g reply => ledger.note g reply
  | .wake _ => ledger

def follow (ledger : Ledger) (events : List Event) : Ledger := events.foldl after ledger

/-- The latest load is on its way. -/
def Awaits (ledger : Ledger) : Prop := ledger.head? = some none

/-- The reply that was taken last. -/
def latest? (ledger : Ledger) : Option (Reply Page) := ledger.findSome? id

/-- The listing that was taken last. -/
def listed? (ledger : Ledger) : Option Page := ledger.findSome? fun taken => taken.bind Except.toOption

def names (config : NamesConfig) (ledger : Ledger) : Dict String :=
  match ledger.latest? with
  | some (.ok page) => ofPage config page
  | _ => .empty

def status : Ledger → Status
  | [] => .notLoaded
  | none :: _ => .loading
  | some (.ok _) :: _ => .loaded
  | some (.error _) :: _ => .failed

theorem follow_concat (ledger : Ledger) (events : List Event) (event : Event) :
    ledger.follow (events ++ [event]) = (ledger.follow events).after event := by
  simp [follow]

theorem status_eq_notLoaded_iff {ledger : Ledger} : ledger.status = .notLoaded ↔ ledger = [] := by
  match ledger with
  | [] => simp [status]
  | none :: _ => simp [status]
  | some (.ok _) :: _ => simp [status]
  | some (.error _) :: _ => simp [status]

/-- Whatever was listed last is what was taken last, if that is no failure. -/
theorem latest?_of_listed? {ledger : Ledger} {page : Page} (listed : ledger.listed? = some page)
    (sound : ∀ causes, ledger.latest? ≠ some (.error causes)) : ledger.latest? = some (.ok page) := by
  induction ledger with
  | nil => cases listed
  | cons taken earlier ih =>
    match taken with
    | none => exact ih listed sound
    | some (.ok other) =>
      obtain rfl : other = page := Option.some.inj listed
      rfl
    | some (.error causes) => exact absurd rfl (sound causes)

/-- Only the reply to the latest load, while that is on its way, is taken. -/
theorem latest?_after (ledger : Ledger) (event : Event) :
    (ledger.after event).latest? = ledger.latest? ∨
    ∃ reply, event = .reply ledger.length reply ∧ ledger.Awaits ∧
      (ledger.after event).latest? = some reply := by
  match event, ledger with
  | .ensure, [] => exact .inl rfl
  | .ensure, _ :: _ => exact .inl rfl
  | .refresh, _ => exact .inl rfl
  | .wake _, _ => exact .inl rfl
  | .reply _ _, [] => exact .inl rfl
  | .reply _ _, some _ :: _ => exact .inl rfl
  | .reply g reply, none :: earlier =>
    by_cases own : g = earlier.length + 1
    · subst own
      exact .inr ⟨reply, rfl, rfl, by simp [after, note, latest?]⟩
    · exact .inl (by simp [after, note, own])

end Ledger

/-- The names keep to their ledger, and every load was asked for once. -/
structure Keeps (config : NamesConfig) (n : Names) (said : List (Notice Nat Result)) (ledger : Ledger) : Prop where
  settings : n.config = config
  count : n.desk.slot.generation = ledger.length
  /-- Nothing but a newer load cancels a load. -/
  uncancelled : n.desk.slot.generation ∉ n.desk.slot.cancelled
  status : n.state.status = ledger.status
  names : n.state.names = ledger.names config
  awaits : (∃ w, n.desk.live? = some w) ↔ ledger.Awaits
  requests : Notice.requests said = (List.range' 1 ledger.length).map fun g => (g, listing config)

section Keeping

variable {config : NamesConfig} {n after : Names} {event : Event} {said notices : List (Notice Nat Result)}
  {ledger : Ledger}

theorem new_keeps (config : NamesConfig) : Keeps config (new config) [] [] where
  settings := rfl
  count := rfl
  uncancelled := List.not_mem_nil
  status := rfl
  names := rfl
  awaits := iff_of_false nofun nofun
  requests := rfl

theorem Keeps.latest (keeps : Keeps config n said ledger) {w : Waiting Unit} (live : n.desk.live? = some w) :
    ∃ earlier, ledger = none :: earlier ∧ w.ticket.generation = earlier.length + 1 := by
  obtain ⟨earlier, same⟩ := List.head?_eq_some_iff.mp (keeps.awaits.mp ⟨w, live⟩)
  have number := (Desk.live?_generation live).symm.trans keeps.count
  rw [same] at number
  exact ⟨earlier, same, number⟩

theorem Keeps.missed (keeps : Keeps config n said ledger) {g : Nat}
    (dead : ∀ w, n.desk.live? = some w → w.ticket.generation ≠ g) (reply : Reply Page) :
    ledger.note g reply = ledger := by
  match ledger with
  | [] => rfl
  | some _ :: _ => rfl
  | none :: earlier =>
    obtain ⟨w, live⟩ := keeps.awaits.mpr rfl
    have number := (Desk.live?_generation live).symm.trans keeps.count
    exact if_neg fun same => dead w live (number.trans same.symm)

/-- The latest load is never cancelled, so that a load which is not live is not the latest. -/
theorem Keeps.older (keeps : Keeps config n said ledger) {w : Waiting Unit} (dead : ¬ n.desk.slot.IsLive w.ticket) :
    n.desk.settledSlot State.settled w = n.desk.slot := by
  refine if_neg fun current => dead (Slot.isLive_iff.mpr ?_)
  have newest := Slot.isCurrent_iff.mp current
  exact ⟨newest, newest ▸ keeps.uncancelled⟩

theorem Keeps.asked (keeps : Keeps config n said ledger) (sound : n.desk.Sound) :
    Keeps config n.asking
      (said ++ [.started (n.desk.slot.generation + 1), .asked (n.desk.slot.generation + 1) (listing n.config)])
      (none :: ledger) where
  settings := keeps.settings
  count := congrArg (· + 1) keeps.count
  uncancelled member := by
    rcases List.mem_cons.mp member with same | early
    · exact absurd same (Nat.succ_ne_self _)
    · exact absurd (sound.bounded _ early) (Nat.not_succ_le_self _)
  status := rfl
  names := keeps.names
  awaits := by
    have turned := sound.with_slot (n.desk.slot.update State.loading) rfl rfl
    exact iff_of_true ⟨_, Desk.live?_await_issue turned ()⟩ rfl
  requests := by
    rw [Notice.requests_append, keeps.requests, keeps.settings, keeps.count, List.length_cons, List.range'_concat,
      List.map_append, Nat.one_mul, Nat.add_comm 1]
    rfl

/-- The latest load ends with what its reply says. -/
theorem Keeps.taken (keeps : Keeps config n said ledger) {w : Waiting Unit} (live : n.desk.live? = some w)
    (reply : Reply Page) {change : State → State}
    (status : (change n.state).status = Ledger.status [some reply])
    (names : (change n.state).names = Ledger.names config [some reply]) (result : Result) :
    Keeps config (n.ended w (n.desk.slot.finish change)) (said ++ [.finished w.ticket.generation result])
      (ledger.note w.ticket.generation reply) := by
  obtain ⟨earlier, rfl, number⟩ := keeps.latest live
  have noted : Ledger.note w.ticket.generation reply (none :: earlier) = some reply :: earlier := if_pos number
  rw [noted]
  refine ⟨keeps.settings, keeps.count, keeps.uncancelled, status.trans ?_, names.trans ?_, iff_of_false ?_ nofun, ?_⟩
  · cases reply <;> rfl
  · cases reply <;> rfl
  · rintro ⟨v, other⟩
    cases (Desk.live?_ended live (n.desk.slot.finish change) rfl rfl).symm.trans other
  · rw [Notice.requests_append, keeps.requests]
    exact List.append_nil _

theorem keeps_of_turn (turn : Turn n event after notices) (sound : n.desk.Sound) (keeps : Keeps config n said ledger) :
    Keeps config after (said ++ notices) (ledger.after event) := by
  have silent {quiet : List (Notice Nat Result)} (none : Notice.requests quiet = []) :
      Notice.requests (said ++ quiet) = (List.range' 1 ledger.length).map fun g => (g, listing config) := by
    rw [Notice.requests_append, none, List.append_nil, keeps.requests]
  cases turn with
  | present known =>
    have loaded : ledger.isEmpty = false := by
      rw [keeps.status, ne_eq, Ledger.status_eq_notLoaded_iff] at known
      exact List.isEmpty_eq_false_iff.mpr known
    simp only [Ledger.after, loaded, Bool.false_eq_true, if_false]
    exact { keeps with requests := silent rfl }
  | asked asks =>
    have entered : ledger.after event = none :: ledger := by
      rcases asks with rfl | ⟨rfl, fresh⟩
      · rfl
      · obtain rfl := Ledger.status_eq_notLoaded_iff.mp (keeps.status.symm.trans fresh)
        rfl
    rw [entered]
    exact keeps.asked sound
  | @unheard g reply gone =>
    rw [List.append_nil, Ledger.after, keeps.missed (fun w live => Desk.ne_of_gone gone live)]
    exact keeps
  | asleep _ =>
    rw [List.append_nil]
    exact keeps
  | @loaded w page live =>
    exact keeps.taken live (.ok page) rfl (congrArg (ofPage · page) keeps.settings) _
  | @failed w causes live => exact keeps.taken live (.error causes) rfl rfl _
  | @dropped w event found dead told =>
    have still : ledger.after event = ledger := by
      rcases told with ⟨reply, rfl⟩ | rfl
      · exact keeps.missed (fun v live => Desk.ne_of_dead found dead live) reply
      · rfl
    have same := keeps.older dead
    have live : (n.ended w n.desk.slot).desk.live? = n.desk.live? := by
      have settled := Desk.live?_settled found dead State.settled
      rwa [same] at settled
    rw [still, same]
    exact ⟨keeps.settings, keeps.count, keeps.uncancelled, keeps.status, keeps.names, live ▸ keeps.awaits, silent rfl⟩

theorem run_keeps (config : NamesConfig) (events : List Event) :
    let told := controller.run (new config) events
    told.1.desk.Sound ∧ Keeps config told.1 told.2 (Ledger.follow [] events) := by
  induction events using List.reverseRecOn with
  | nil => exact ⟨Desk.new_sound .., new_keeps config⟩
  | append_singleton events event ih =>
    obtain ⟨sound, keeps⟩ := ih
    have turn := handle_turn (controller.run (new config) events).1 event
    rw [Controller.run_concat, Ledger.follow_concat]
    exact ⟨turn.sound sound, keeps_of_turn turn sound keeps⟩

end Keeping

end RunQuery.Names
