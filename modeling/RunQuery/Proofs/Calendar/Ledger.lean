import RunQuery.Calendar.Basic
import RunQuery.Proofs.Dict
import Mathlib.Data.List.Induction

/-!
The fetches of a calendar, written down: what each was asked for, the pages that came for it and what became
of it. A ledger knows no slots, tickets and walks. Only its latest fetch can be pending, and what is not
pending is never touched again; so the latest fetch that was applied is followed only by later ones.
-/
namespace RunQuery.Calendar

inductive Fate where
  | pending
  /-- All its pages have come. -/
  | applied
  /-- It failed, was cancelled or superseded, or its time was up. -/
  | dropped
deriving DecidableEq

structure Fetch where
  /-- In order, and each once. -/
  sources : List String
  span : Span
  /-- The pages that have come, the first one first. -/
  pages : List Page
  fate : Fate

namespace Fetch

/-- A new fetch. Nothing is asked for without sources, or when there may be no pages. -/
def opened (config : CalendarConfig) (sources : List String) (span : Span) : Fetch :=
  ⟨sortedTexts sources, span, [], if sources = [] ∨ config.maxPages = 0 then .applied else .pending⟩

/-- The fetch with one more page, which is the last if it names no next one or no more may be asked for. -/
def received (config : CalendarConfig) (page : Page) (f : Fetch) : Fetch :=
  let pages := f.pages ++ [page]
  let more := page.next.isSome && pages.length < config.maxPages.toNat
  { f with pages, fate := if more then .pending else .applied }

def dropped (f : Fetch) : Fetch := { f with fate := .dropped }

def records (config : CalendarConfig) (f : Fetch) : List TimedRecord :=
  timed config.timestampFields f.span (f.pages.flatMap Page.records)

end Fetch

/-- All fetches, the latest first. The first fetch has number one. -/
abbrev Ledger := List Fetch

/-- The fetch that a reply, a wake-up or a deadline is for. -/
def Event.target? : Event → Option Nat
  | .reply (.runs g) _ => some g
  | .wake (.runs g) => some g
  | .expire g => some g
  | _ => none

/-- The page that comes for the fetch of a number. -/
def Event.page? (g : Nat) : Event → Option Page
  | .reply (.runs k) (.ok page) => if k = g then some page else none
  | _ => none

/-- The event ends the fetch of a number without its records, if it is pending: it fails, is cancelled or
superseded, or its time is up. -/
def Event.drops (g : Nat) : Event → Bool
  | .fetch _ _ => true
  | .reload => true
  | .reply (.runs k) (.error _) => k = g
  | .expire k => k = g
  | .cancel => true
  | _ => false

namespace Ledger

def fetch? (g : Nat) : Ledger → Option Fetch
  | [] => none
  | f :: earlier => if g = earlier.length + 1 then some f else fetch? g earlier

/-- Changes the latest fetch, if it has this number and is pending. -/
def change (g : Nat) (how : Fetch → Fetch) : Ledger → Ledger
  | [] => []
  | f :: earlier => if g = earlier.length + 1 ∧ f.fate = .pending then how f :: earlier else f :: earlier

def enter (config : CalendarConfig) (ledger : Ledger) (sources : List String) (span : Span) : Ledger :=
  Fetch.opened config sources span :: ledger.change ledger.length Fetch.dropped

def after (config : CalendarConfig) (ledger : Ledger) : Event → Ledger
  | .fetch sources span => ledger.enter config sources span
  | .reload =>
    match ledger.head? with
    | none => ledger
    | some last => ledger.enter config last.sources last.span
  | .reply (.runs g) (.ok page) => ledger.change g (Fetch.received config page)
  | .reply (.runs g) (.error _) => ledger.change g Fetch.dropped
  | .reply (.names _) _ => ledger
  | .wake _ => ledger
  | .expire g => ledger.change g Fetch.dropped
  | .cancel => ledger.change ledger.length Fetch.dropped

def follow (config : CalendarConfig) (ledger : Ledger) (events : List Event) : Ledger :=
  events.foldl (after config) ledger

/-- The number of the latest fetch that was applied, or zero. -/
def shown : Ledger → Nat
  | [] => 0
  | f :: earlier => if f.fate = .applied then earlier.length + 1 else shown earlier

/-- The records of the latest fetch that was applied, or none. -/
def records (config : CalendarConfig) (ledger : Ledger) : List TimedRecord :=
  (ledger.fetch? ledger.shown).elim [] (Fetch.records config)

@[simp] theorem length_change (g : Nat) (how : Fetch → Fetch) (ledger : Ledger) :
    (ledger.change g how).length = ledger.length := by
  cases ledger with
  | nil => rfl
  | cons f earlier =>
    simp only [change]
    split <;> rfl

@[simp] theorem length_enter (config : CalendarConfig) (ledger : Ledger) (sources : List String) (span : Span) :
    (ledger.enter config sources span).length = ledger.length + 1 :=
  congrArg (· + 1) (length_change ..)

theorem fetch?_le {ledger : Ledger} {g : Nat} {f : Fetch} (entered : ledger.fetch? g = some f) :
    g ≤ ledger.length := by
  induction ledger with
  | nil => cases entered
  | cons last earlier ih =>
    rw [fetch?] at entered
    split at entered
    next newest => exact Nat.le_of_eq newest
    next => exact Nat.le_succ_of_le (ih entered)

theorem fetch?_cons_of_le {f : Fetch} {earlier : Ledger} {g : Nat} (old : g ≤ earlier.length) :
    fetch? g (f :: earlier) = fetch? g earlier :=
  if_neg (by omega)

theorem fetch?_change (ledger : Ledger) (g k : Nat) (how : Fetch → Fetch) :
    (ledger.change g how).fetch? k =
      (ledger.fetch? k).map fun f => if k = g ∧ k = ledger.length ∧ f.fate = .pending then how f else f := by
  cases ledger with
  | nil => rfl
  | cons last earlier =>
    have old (f : Fetch) (entered : fetch? k earlier = some f) : k ≠ earlier.length + 1 := by
      have := fetch?_le entered
      omega
    rw [change]
    by_cases newest : k = earlier.length + 1
    · by_cases hit : g = earlier.length + 1 ∧ last.fate = .pending
      · simp [fetch?, newest, hit]
      · have missed : ¬ (earlier.length + 1 = g ∧ last.fate = .pending) := fun both => hit ⟨both.1.symm, both.2⟩
        simp [fetch?, newest, hit, missed]
    · have same : fetch? k (last :: earlier) = fetch? k earlier := if_neg newest
      rw [same]
      split <;> simp [fetch?, newest]

theorem fetch?_enter (config : CalendarConfig) (ledger : Ledger) (sources : List String) (span : Span) (k : Nat) :
    (ledger.enter config sources span).fetch? k =
      if k = ledger.length + 1 then some (Fetch.opened config sources span)
      else (ledger.fetch? k).map fun f => if k = ledger.length ∧ f.fate = .pending then f.dropped else f := by
  rw [enter, fetch?, length_change, fetch?_change]
  simp

theorem change_latest {f : Fetch} (earlier : Ledger) (pending : f.fate = .pending) (how : Fetch → Fetch) :
    change (earlier.length + 1) how (f :: earlier) = how f :: earlier :=
  if_pos ⟨rfl, pending⟩

theorem change_of_not_pending {ledger : Ledger} {g : Nat}
    (settled : ∀ f, ledger.fetch? g = some f → f.fate ≠ .pending) (how : Fetch → Fetch) :
    ledger.change g how = ledger := by
  cases ledger with
  | nil => rfl
  | cons last earlier =>
    refine if_neg ?_
    rintro ⟨rfl, pending⟩
    exact settled last (if_pos rfl) pending

inductive Entry (config : CalendarConfig) (ledger : Ledger) (event : Event) : Ledger → Prop where
  | kept : Entry config ledger event ledger
  | dropped (g : Nat) : Entry config ledger event (ledger.change g Fetch.dropped)
  | received {g : Nat} {page : Page} (came : event.page? g = some page) :
      Entry config ledger event (ledger.change g (Fetch.received config page))
  | entered (sources : List String) (span : Span) :
      Entry config ledger event (ledger.enter config sources span)

theorem after_entry (config : CalendarConfig) (ledger : Ledger) (event : Event) :
    Entry config ledger event (ledger.after config event) := by
  match event with
  | .fetch sources span => exact .entered sources span
  | .reload =>
    simp only [after]
    split
    · exact .kept
    next last _ => exact .entered last.sources last.span
  | .reply (.runs g) (.ok page) => exact .received (if_pos rfl)
  | .reply (.runs g) (.error _) => exact .dropped g
  | .reply (.names _) _ => exact .kept
  | .wake _ => exact .kept
  | .expire g => exact .dropped g
  | .cancel => exact .dropped _

section After

variable {config : CalendarConfig} {ledger next : Ledger} {event : Event}

theorem Entry.length_le (entry : Entry config ledger event next) : ledger.length ≤ next.length := by
  cases entry <;> simp

theorem Entry.settled (entry : Entry config ledger event next) {g : Nat} (known : g ≤ ledger.length)
    (settled : ∀ f, ledger.fetch? g = some f → f.fate ≠ .pending) : next.fetch? g = ledger.fetch? g := by
  have kept (how : Fetch → Fetch) (k : Nat) : (ledger.change k how).fetch? g = ledger.fetch? g := by
    rw [fetch?_change]
    cases entered : ledger.fetch? g with
    | none => rfl
    | some f => simp [settled f entered]
  cases entry with
  | kept => rfl
  | dropped k => exact kept _ k
  | received _ => exact kept _ _
  | entered sources span =>
    rw [enter, fetch?_cons_of_le (by simpa using known)]
    exact kept _ _

theorem after_of_settled {g : Nat} (target : event.target? = some g)
    (settled : ∀ f, ledger.fetch? g = some f → f.fate ≠ .pending) : ledger.after config event = ledger := by
  match event, target with
  | .reply (.runs _) (.ok page), rfl => exact change_of_not_pending settled _
  | .reply (.runs _) (.error _), rfl => exact change_of_not_pending settled _
  | .wake (.runs _), rfl => rfl
  | .expire _, rfl => exact change_of_not_pending settled _

theorem shown_le (ledger : Ledger) : ledger.shown ≤ ledger.length := by
  induction ledger with
  | nil => exact Nat.le_refl _
  | cons f earlier ih =>
    rw [shown]
    split
    · exact Nat.le_refl _
    · exact Nat.le_succ_of_le ih

theorem shown_change (ledger : Ledger) (g : Nat) (how : Fetch → Fetch) :
    (ledger.change g how).shown = ledger.shown ∨ (ledger.change g how).shown = ledger.length := by
  cases ledger with
  | nil => exact .inl rfl
  | cons f earlier =>
    rw [change]
    split
    next hit =>
      have before : shown (f :: earlier) = shown earlier := if_neg (by simp [hit.2])
      by_cases applied : (how f).fate = .applied
      · exact .inr (if_pos applied)
      · exact .inl ((if_neg applied).trans before.symm)
    next => exact .inl rfl

theorem shown_dropped (ledger : Ledger) (g : Nat) : (ledger.change g Fetch.dropped).shown = ledger.shown := by
  cases ledger with
  | nil => rfl
  | cons f earlier =>
    rw [change]
    split
    next hit => simp [shown, hit.2, Fetch.dropped]
    next => rfl

/-- Another fetch is shown only when it is the latest. -/
theorem Entry.shown (entry : Entry config ledger event next) :
    next.shown = ledger.shown ∨ next.shown = next.length := by
  cases entry with
  | kept => exact .inl rfl
  | dropped g => exact .inl (shown_dropped ledger g)
  | received _ => exact (length_change ..).symm ▸ shown_change ledger _ _
  | entered sources span =>
    rw [length_enter, enter, Ledger.shown, length_change, shown_dropped]
    split
    · exact .inr rfl
    · exact .inl rfl

theorem Entry.shown_le_shown (entry : Entry config ledger event next) : ledger.shown ≤ next.shown := by
  have bound := ledger.shown_le
  have grows := entry.length_le
  rcases entry.shown with same | newest <;> omega

end After

/-- The fetch that is shown was applied, and none that was applied is later. -/
theorem shown_eq_iff {ledger : Ledger} {g : Nat} {f : Fetch} (entered : ledger.fetch? g = some f) :
    (f.fate = .applied → g ≤ ledger.shown) ∧ (g = ledger.shown → f.fate = .applied) := by
  induction ledger with
  | nil => cases entered
  | cons last earlier ih =>
    have bound := shown_le earlier
    rw [shown]
    rw [fetch?] at entered
    by_cases newest : g = earlier.length + 1
    · rw [if_pos newest, Option.some.injEq] at entered
      subst entered
      by_cases applied : last.fate = .applied
      · simp [applied, newest]
      · rw [if_neg applied]
        exact ⟨fun is => absurd is applied, fun same => by omega⟩
    · rw [if_neg newest] at entered
      have old := fetch?_le entered
      split
      · exact ⟨fun _ => by omega, fun same => absurd same newest⟩
      · exact ih entered

section Records

variable {config : CalendarConfig} {f : Fetch} {earlier : Ledger}

theorem records_of_applied (applied : f.fate = .applied) :
    records config (f :: earlier) = f.records config := by
  simp [records, shown, applied, fetch?]

theorem records_of_not_applied (other : f.fate ≠ .applied) :
    records config (f :: earlier) = earlier.records config := by
  rw [records, shown, if_neg other, fetch?_cons_of_le (shown_le earlier), records]

theorem records_dropped (config : CalendarConfig) (ledger : Ledger) (g : Nat) :
    (ledger.change g Fetch.dropped).records config = ledger.records config := by
  cases ledger with
  | nil => rfl
  | cons f earlier =>
    rw [change]
    split
    next hit =>
      rw [records_of_not_applied (by simp [Fetch.dropped]), records_of_not_applied (by simp [hit.2])]
    next => rfl

end Records

/-- What holds of every ledger that starts empty: only the latest fetch is pending, and without sources
there are no pages. -/
structure Sound (ledger : Ledger) : Prop where
  latest : ∀ g f, ledger.fetch? g = some f → f.fate = .pending → g = ledger.length
  empty : ∀ g f, ledger.fetch? g = some f → f.sources = [] → f.fate = .applied ∧ f.pages = []

theorem Sound.nil : Sound [] := ⟨fun _ _ entered => (by cases entered), fun _ _ entered => (by cases entered)⟩

theorem Sound.change {ledger : Ledger} (sound : ledger.Sound) (g : Nat) {how : Fetch → Fetch}
    (sources : ∀ f, (how f).sources = f.sources) : (ledger.change g how).Sound := by
  constructor
  · intro k f entered pending
    rw [length_change]
    rw [fetch?_change] at entered
    obtain ⟨before, known, rfl⟩ := Option.map_eq_some_iff.mp entered
    split at pending
    next hit => exact hit.2.1
    next => exact sound.latest k before known pending
  · intro k f entered
    rw [fetch?_change] at entered
    obtain ⟨before, known, rfl⟩ := Option.map_eq_some_iff.mp entered
    split
    next hit =>
      intro none
      have applied := (sound.empty k before known (sources before ▸ none)).1
      simp [applied] at hit
    next => exact sound.empty k before known

theorem Sound.enter {ledger : Ledger} (sound : ledger.Sound) (config : CalendarConfig)
    (sources : List String) (span : Span) : (ledger.enter config sources span).Sound := by
  have superseded : (ledger.change ledger.length Fetch.dropped).Sound := sound.change _ fun _ => rfl
  constructor
  · intro k f entered pending
    rw [length_enter]
    rw [fetch?_enter] at entered
    split at entered
    next newest => exact newest
    next =>
      obtain ⟨before, known, rfl⟩ := Option.map_eq_some_iff.mp entered
      split at pending
      next => simp [Fetch.dropped] at pending
      next missed => exact absurd ⟨sound.latest k before known pending, pending⟩ missed
  · intro k f entered none
    rw [Ledger.enter, fetch?] at entered
    split at entered
    next =>
      cases entered
      exact ⟨if_pos (.inl (sortedTexts_eq_nil_iff.mp none)), rfl⟩
    next => exact superseded.empty k f entered none

theorem Entry.sound {config : CalendarConfig} {ledger next : Ledger} {event : Event}
    (entry : Entry config ledger event next) (sound : ledger.Sound) : next.Sound := by
  cases entry with
  | kept => exact sound
  | dropped g => exact sound.change g fun _ => rfl
  | received _ => exact sound.change _ fun _ => rfl
  | entered sources span => exact sound.enter config sources span

theorem Sound.dropped {ledger : Ledger} (sound : ledger.Sound) (config : CalendarConfig) {g : Nat} {f : Fetch}
    (entered : ledger.fetch? g = some f) (pending : f.fate = .pending) {event : Event}
    (drops : event.drops g = true) : (ledger.after config event).fetch? g = some f.dropped := by
  have newest := sound.latest g f entered pending
  have changed : (ledger.change g Fetch.dropped).fetch? g = some f.dropped := by
    rw [fetch?_change, entered, Option.map_some, if_pos ⟨rfl, newest, pending⟩]
  have superseded (sources : List String) (span : Span) :
      (ledger.enter config sources span).fetch? g = some f.dropped := by
    rw [Ledger.enter, fetch?_cons_of_le (by simp [newest]), ← newest, changed]
  match event, drops with
  | .fetch sources span, _ => exact superseded sources span
  | .reload, _ =>
    cases ledger with
    | nil => cases entered
    | cons last earlier => exact superseded last.sources last.span
  | .reply (.runs k) (.error _), same => exact (of_decide_eq_true same).symm ▸ changed
  | .expire k, same => exact (of_decide_eq_true same).symm ▸ changed
  | .cancel, _ => exact newest ▸ changed

/-- The pages of every fetch came under its number, in this order. -/
def Addressed (ledger : Ledger) (events : List Event) : Prop :=
  ∀ g f, ledger.fetch? g = some f → f.pages.Sublist (events.filterMap (Event.page? g))

theorem Entry.addressed {config : CalendarConfig} {ledger next : Ledger} {events : List Event} {event : Event}
    (entry : Entry config ledger event next) (addressed : ledger.Addressed events) :
    next.Addressed (events ++ [event]) := by
  have longer (g : Nat) (pages : List Page) (before : pages.Sublist (events.filterMap (Event.page? g))) :
      pages.Sublist ((events ++ [event]).filterMap (Event.page? g)) := by
    rw [List.filterMap_append]
    exact before.trans (List.sublist_append_left ..)
  intro g f entered
  cases entry with
  | kept => exact longer g _ (addressed g f entered)
  | dropped k =>
    rw [fetch?_change] at entered
    obtain ⟨before, known, rfl⟩ := Option.map_eq_some_iff.mp entered
    split <;> exact longer g _ (addressed g before known)
  | @received k page came =>
    rw [fetch?_change] at entered
    obtain ⟨before, known, rfl⟩ := Option.map_eq_some_iff.mp entered
    split
    next hit =>
      rw [List.filterMap_append, hit.1]
      simp only [List.filterMap_cons, came, List.filterMap_nil]
      exact (addressed k before (hit.1 ▸ known)).append (List.Sublist.refl _)
    next => exact longer g _ (addressed g before known)
  | entered sources span =>
    rw [fetch?_enter] at entered
    split at entered
    next =>
      cases entered
      exact List.nil_sublist _
    next =>
      obtain ⟨before, known, rfl⟩ := Option.map_eq_some_iff.mp entered
      split <;> exact longer g _ (addressed g before known)

section Follow

variable (config : CalendarConfig) (ledger : Ledger)

theorem follow_append (early late : List Event) :
    ledger.follow config (early ++ late) = (ledger.follow config early).follow config late :=
  List.foldl_append

theorem follow_concat (events : List Event) (event : Event) :
    ledger.follow config (events ++ [event]) = (ledger.follow config events).after config event :=
  follow_append ..

theorem follow_settled (events : List Event) {g : Nat} (known : g ≤ ledger.length)
    (settled : ∀ f, ledger.fetch? g = some f → f.fate ≠ .pending) :
    (ledger.follow config events).fetch? g = ledger.fetch? g := by
  induction events generalizing ledger with
  | nil => rfl
  | cons event rest ih =>
    have entry := after_entry config ledger event
    have same := entry.settled known settled
    exact (ih _ (Nat.le_trans known entry.length_le) (same ▸ settled)).trans same

theorem follow_shown (events : List Event) : ledger.shown ≤ (ledger.follow config events).shown := by
  induction events generalizing ledger with
  | nil => exact Nat.le_refl _
  | cons event rest ih => exact Nat.le_trans (after_entry config ledger event).shown_le_shown (ih _)

end Follow

theorem follow_sound (config : CalendarConfig) (events : List Event) : (follow config [] events).Sound := by
  induction events using List.reverseRecOn with
  | nil => exact .nil
  | append_singleton events event ih =>
    rw [follow_concat]
    exact (after_entry ..).sound ih

theorem follow_addressed (config : CalendarConfig) (events : List Event) :
    (follow config [] events).Addressed events := by
  induction events using List.reverseRecOn with
  | nil => exact fun _ _ entered => (by cases entered)
  | append_singleton events event ih =>
    rw [follow_concat]
    exact (after_entry ..).addressed ih

end Ledger

end RunQuery.Calendar
