import RunQuery.Proofs.Calendar.Joined
import RunQuery.Proofs.Calendar.Records

/-!
What the fetches of a calendar come to, read off the ledger alone: a fetch gets its verdict when it is no longer
pending, and keeps it. The runs say of a fetch nothing but its verdict, sooner or later, and what they show as a
failure is that of the latest verdict which was no cancellation.
-/
namespace RunQuery.Calendar

/-- The number of a fetch, and what it came to. -/
abbrev Verdict := Nat × Runs.Result

namespace Ledger

/-- The verdict on the latest fetch, if it has this number and is pending. -/
def closing (g : Nat) (judge : Fetch → Option Runs.Result) : Ledger → List Verdict
  | [] => []
  | f :: earlier =>
    if g = earlier.length + 1 ∧ f.fate = .pending then ((judge f).map (Prod.mk g)).toList else []

/-- The pending fetch is cut short. -/
def cut (g : Nat) (ledger : Ledger) : List Verdict := ledger.closing g fun _ => some (.error .cancelled)

/-- A new fetch cuts the pending one short, and may be done at once. -/
def superseding (config : CalendarConfig) (ledger : Ledger) (sources : List String) : List Verdict :=
  ledger.cut ledger.length ++
    if sources = [] ∨ config.maxPages = 0 then [(ledger.length + 1, .ok ())] else []

/-- The verdicts of one event, that on the earlier fetch first. -/
def verdicts (config : CalendarConfig) (ledger : Ledger) : Event → List Verdict
  | .fetch sources _ => ledger.superseding config sources
  | .reload =>
    match ledger.head? with
    | none => []
    | some last => ledger.superseding config last.sources
  | .reply (.runs g) (.ok page) =>
    ledger.closing g fun f => if (f.received config page).fate = .applied then some (.ok ()) else none
  | .reply (.runs g) (.error causes) => ledger.closing g fun _ => some (.error (.store causes))
  | .reply (.names _) _ => []
  | .wake _ => []
  | .expire g => ledger.cut g
  | .cancel => ledger.cut ledger.length

/-- All verdicts of a course of events, the first one first. -/
def verdictsOf (config : CalendarConfig) (ledger : Ledger) : List Event → List Verdict
  | [] => []
  | event :: rest => ledger.verdicts config event ++ verdictsOf config (ledger.after config event) rest

theorem verdictsOf_concat (config : CalendarConfig) (ledger : Ledger) (events : List Event) (event : Event) :
    ledger.verdictsOf config (events ++ [event]) =
      ledger.verdictsOf config events ++ (ledger.follow config events).verdicts config event := by
  induction events generalizing ledger with
  | nil => exact List.append_nil _
  | cons first rest ih => simp only [List.cons_append, verdictsOf, ih, List.append_assoc, follow, List.foldl_cons]

theorem mem_closing {g : Nat} {judge : Fetch → Option Runs.Result} {ledger : Ledger} {v : Verdict}
    (closed : v ∈ ledger.closing g judge) :
    ∃ f earlier, ledger = f :: earlier ∧ v.1 = g ∧ g = earlier.length + 1 ∧ f.fate = .pending ∧
      judge f = some v.2 := by
  cases ledger with
  | nil => cases closed
  | cons f earlier =>
    rw [closing] at closed
    split at closed
    next hit =>
      rw [Option.mem_toList, Option.map_eq_some_iff] at closed
      obtain ⟨result, judged, rfl⟩ := closed
      exact ⟨f, earlier, rfl, rfl, hit.1, hit.2, judged⟩
    next => cases closed

/-- What is known of the verdicts so far: they are on fetches that are no longer pending, in the order of these,
and there is one on the latest fetch if that was dropped. -/
structure Decided (ledger : Ledger) (known : List Verdict) : Prop where
  ordered : known.Pairwise fun v w => v.1 < w.1
  final : ∀ v ∈ known, ∃ f, ledger.fetch? v.1 = some f ∧ f.fate ≠ .pending
  dropped : ∀ f, ledger.head? = some f → f.fate = .dropped → ∃ e, (ledger.length, .error e) ∈ known

section Decided

variable {config : CalendarConfig} {ledger : Ledger} {known : List Verdict}

theorem Decided.le (decided : ledger.Decided known) {v : Verdict} (member : v ∈ known) : v.1 ≤ ledger.length := by
  obtain ⟨f, entered, _⟩ := decided.final v member
  exact fetch?_le entered

/-- A fetch gets one verdict. -/
theorem Decided.unique (decided : ledger.Decided known) {g : Nat} {r s : Runs.Result} (one : (g, r) ∈ known)
    (other : (g, s) ∈ known) : r = s := by
  have distinct : (known.map Prod.fst).Nodup := List.pairwise_map.mpr (decided.ordered.imp Nat.ne_of_lt)
  exact congrArg Prod.snd (List.inj_on_of_nodup_map distinct one other rfl)

/-- The verdict on the latest fetch is the latest one. -/
theorem Decided.latest (decided : ledger.Decided known) {result : Runs.Result}
    (member : (ledger.length, result) ∈ known) : ∃ earlier, known = earlier ++ [(ledger.length, result)] := by
  obtain ⟨earlier, later, rfl⟩ := List.append_of_mem member
  cases later with
  | nil => exact ⟨earlier, rfl⟩
  | cons v rest =>
    have ordered := (List.pairwise_append.mp decided.ordered).2.1
    have after : ledger.length < v.1 := List.rel_of_pairwise_cons ordered List.mem_cons_self
    have bound : v.1 ≤ ledger.length := decided.le (by simp)
    omega

theorem Decided.change (decided : ledger.Decided known) (g : Nat) {how : Fetch → Fetch}
    {judge : Fetch → Option Runs.Result} (ends : ∀ f r, judge f = some r → (how f).fate ≠ .pending)
    (drops : ∀ f, (how f).fate = .dropped → ∃ e, judge f = some (.error e)) :
    (ledger.change g how).Decided (known ++ ledger.closing g judge) := by
  cases ledger with
  | nil => exact (List.append_nil known).symm ▸ decided
  | cons f earlier =>
    by_cases hit : g = earlier.length + 1 ∧ f.fate = .pending
    · obtain ⟨rfl, pending⟩ := hit
      have closed : closing (earlier.length + 1) judge (f :: earlier) =
          ((judge f).map (Prod.mk (earlier.length + 1))).toList := if_pos ⟨rfl, pending⟩
      have older (v : Verdict) (member : v ∈ known) : v.1 ≤ earlier.length := by
        obtain ⟨k, entered, settled⟩ := decided.final v member
        have bound : v.1 ≤ earlier.length + 1 := fetch?_le entered
        rw [fetch?] at entered
        split at entered
        next => cases entered; exact absurd pending settled
        next => omega
      have numbered (v : Verdict) (member : v ∈ closing (earlier.length + 1) judge (f :: earlier)) :
          v.1 = earlier.length + 1 ∧ judge f = some v.2 := by
        obtain ⟨_, _, same, number, _, _, judged⟩ := mem_closing member
        obtain ⟨rfl, rfl⟩ := List.cons.inj same
        exact ⟨number, judged⟩
      rw [change_latest earlier pending]
      refine ⟨List.pairwise_append.mpr ⟨decided.ordered, ?_, fun v before w new => ?_⟩, fun v member => ?_,
        fun k newest fate => ?_⟩
      · rw [closed]
        cases judge f <;> simp
      · rw [(numbered w new).1]
        exact Nat.lt_succ_of_le (older v before)
      · rcases List.mem_append.mp member with before | new
        · rw [fetch?_cons_of_le (older v before), ← fetch?_cons_of_le (f := f) (older v before)]
          exact decided.final v before
        · obtain ⟨number, judged⟩ := numbered v new
          exact ⟨how f, if_pos number, ends f v.2 judged⟩
      · cases newest
        obtain ⟨e, judged⟩ := drops f fate
        exact ⟨e, List.mem_append_right _ (by simp [closed, judged])⟩
    · have same : change g how (f :: earlier) = f :: earlier := if_neg hit
      have none : closing g judge (f :: earlier) = [] := if_neg hit
      rw [same, none, List.append_nil]
      exact decided

theorem Decided.cut (decided : ledger.Decided known) (g : Nat) :
    (ledger.change g Fetch.dropped).Decided (known ++ ledger.cut g) :=
  decided.change g (fun _ _ _ => by simp [Fetch.dropped]) fun _ _ => ⟨_, rfl⟩

theorem Decided.enter (decided : ledger.Decided known) (config : CalendarConfig) (sources : List String)
    (span : Span) : (ledger.enter config sources span).Decided (known ++ ledger.superseding config sources) := by
  have before := decided.cut ledger.length
  have size : (ledger.change ledger.length Fetch.dropped).length = ledger.length := length_change ..
  rw [Ledger.enter, superseding, ← List.append_assoc]
  refine ⟨List.pairwise_append.mpr ⟨before.ordered, ?_, fun v old w new => ?_⟩, fun v member => ?_,
    fun f newest fate => ?_⟩
  · split <;> simp
  · have bound := before.le old
    split at new
    · simp only [List.mem_singleton.mp new]
      omega
    · cases new
  · rcases List.mem_append.mp member with old | new
    · rw [fetch?_cons_of_le (before.le old)]
      exact before.final v old
    · split at new
      next nothing =>
        rw [List.mem_singleton.mp new]
        exact ⟨_, if_pos (congrArg (· + 1) size.symm), by simp [Fetch.opened, nothing]⟩
      next => cases new
  · cases newest
    simp only [Fetch.opened] at fate
    split at fate <;> cases fate

theorem Decided.after (decided : ledger.Decided known) (event : Event) :
    (ledger.after config event).Decided (known ++ ledger.verdicts config event) := by
  match event with
  | .fetch sources span => exact decided.enter config sources span
  | .reload =>
    simp only [Ledger.after, verdicts]
    cases ledger.head? with
    | none => exact (List.append_nil known).symm ▸ decided
    | some last => exact decided.enter config last.sources last.span
  | .reply (.runs g) (.ok page) =>
    refine decided.change g (fun f r judged => ?_) fun f fate => ?_
    · split at judged
      next applied => simp [applied]
      next => cases judged
    · simp only [Fetch.received] at fate
      split at fate <;> cases fate
  | .reply (.runs g) (.error causes) =>
    exact decided.change g (fun _ _ _ => by simp [Fetch.dropped]) fun _ _ => ⟨_, rfl⟩
  | .reply (.names _) _ => exact (List.append_nil known).symm ▸ decided
  | .wake _ => exact (List.append_nil known).symm ▸ decided
  | .expire g => exact decided.cut g
  | .cancel => exact decided.cut _

end Decided

theorem follow_decided (config : CalendarConfig) (events : List Event) :
    (follow config [] events).Decided (verdictsOf config [] events) := by
  induction events using List.reverseRecOn with
  | nil => exact ⟨.nil, fun _ none => (List.not_mem_nil none).elim, fun _ none => (by cases none)⟩
  | append_singleton events event ih =>
    rw [follow_concat, verdictsOf_concat]
    exact ih.after event

end Ledger

/-- The failure that is shown after a verdict: a success takes it away, a cancellation leaves it. -/
def failureAfter (before : Option Failure) : Verdict → Option Failure
  | (_, .ok _) => none
  | (_, .error .cancelled) => before
  | (g, .error e) => some (Failure.of ⟨"executions", g⟩ e)

/-- The runs and all they have said, by the verdicts that are known. A cancelled fetch has its verdict even before
the runs say so. -/
structure Tells (r : Runs) (said known : List Verdict) : Prop where
  named : r.desk.Named "executions"
  failure : r.state.failure = known.foldl failureAfter none
  dead : ∀ w ∈ r.desk.waiting, ¬ r.desk.slot.IsLive w.ticket → (w.ticket.generation, .error .cancelled) ∈ known
  said : said ⊆ known

section Telling

variable {config : CalendarConfig} {r : Runs} {ledger : Ledger} {said known : List Verdict}

theorem Keeps.closing_live (keeps : Keeps config r ledger) {w : Waiting Runs.Work} (live : r.desk.live? = some w)
    (judge : Fetch → Option Runs.Result) :
    ∃ f, Walking config w.work f ∧
      ledger.closing w.ticket.generation judge = ((judge f).map (Prod.mk w.ticket.generation)).toList := by
  obtain ⟨f, earlier, rfl, pending, walking, number⟩ := keeps.latest live
  exact ⟨f, walking, if_pos ⟨number, pending⟩⟩

theorem Keeps.closing_missed (keeps : Keeps config r ledger) {g : Nat}
    (dead : ∀ w, r.desk.live? = some w → w.ticket.generation ≠ g) (judge : Fetch → Option Runs.Result) :
    ledger.closing g judge = [] := by
  cases ledger with
  | nil => rfl
  | cons f earlier => exact if_neg (keeps.missed dead rfl)

theorem failureAfter_cut (ledger : Ledger) (g : Nat) (before : Option Failure) :
    (ledger.cut g).foldl failureAfter before = before := by
  cases ledger with
  | nil => rfl
  | cons f earlier =>
    rw [Ledger.cut, Ledger.closing]
    split <;> rfl

/-- What waits and is not live, or is cut short now, is known as cancelled. -/
theorem Tells.cut (tells : Tells r said known) (sound : r.desk.Sound) (keeps : Keeps config r ledger) {g : Nat}
    {w : Waiting Runs.Work} (member : w ∈ r.desk.waiting)
    (ends : ¬ r.desk.slot.IsLive w.ticket ∨ w.ticket.generation = g) :
    (w.ticket.generation, .error .cancelled) ∈ known ++ ledger.cut g := by
  by_cases live : r.desk.slot.IsLive w.ticket
  · have own : w.ticket.generation = g := ends.resolve_left (not_not_intro live)
    obtain ⟨_, _, closed⟩ := keeps.closing_live (sound.live?_of_mem member live) fun _ => some (.error .cancelled)
    refine List.mem_append_right _ ?_
    rw [Ledger.cut, ← own, closed]
    exact List.mem_singleton_self _
  · exact List.mem_append_left _ (tells.dead w member live)

/-- A new fetch cuts short whatever waits. -/
theorem Tells.superseded (tells : Tells r said known) (sound : r.desk.Sound) (keeps : Keeps config r ledger)
    {w : Waiting Runs.Work} (member : w ∈ r.desk.waiting) :
    (w.ticket.generation, .error .cancelled) ∈ known ++ ledger.cut ledger.length := by
  refine tells.cut sound keeps member (Classical.or_iff_not_imp_left.mpr fun live => ?_)
  have number := Desk.live?_generation (sound.live?_of_mem member (not_not.mp live))
  exact number.symm.trans keeps.count

theorem Tells.begun (tells : Tells r said known) (sound : r.desk.Sound) (keeps : Keeps config r ledger)
    {sources : List String} {span : Span} (some : sources ≠ []) (paged : r.config.maxPages ≠ 0) (filter : Filter) :
    Tells (r.begun sources span filter) said (known ++ ledger.superseding config sources) := by
  have none : ¬ (sources = [] ∨ config.maxPages = 0) := not_or.mpr ⟨some, keeps.settings ▸ paged⟩
  rw [Ledger.superseding, if_neg none, List.append_nil]
  refine ⟨?_, ?_, fun w member dead => ?_, fun v member => List.mem_append_left _ (tells.said member)⟩
  · exact (tells.named.with_slot (r.turned (sortedTexts sources) span true) rfl).await_issue _
  · rw [List.foldl_append, failureAfter_cut]
    exact tells.failure
  · rcases List.mem_append.mp member with before | new
    · exact tells.superseded sound keeps before
    · -- the new request itself is live
      rw [List.mem_singleton.mp new] at dead
      exact absurd (sound.with_slot (r.turned (sortedTexts sources) span true) rfl rfl).issue_isLive dead

theorem Tells.emptied (tells : Tells r said known) (sound : r.desk.Sound) (keeps : Keeps config r ledger)
    {sources : List String} {span : Span} (nothing : sources = [] ∨ r.config.maxPages = 0) :
    Tells (r.emptied sources span) (said ++ [(r.desk.slot.generation + 1, .ok ())])
      (known ++ ledger.superseding config sources) := by
  rw [Ledger.superseding, if_pos (keeps.settings ▸ nothing), ← List.append_assoc, ← keeps.count]
  refine ⟨tells.named.with_slot _ rfl, ?_, fun w member _ => ?_, fun v member => ?_⟩
  · rw [List.foldl_append]
    rfl
  · have cut := tells.superseded sound keeps member
    rw [← keeps.count] at cut
    exact List.mem_append_left _ cut
  · rcases List.mem_append.mp member with before | new
    · exact List.mem_append_left _ (List.mem_append_left _ (tells.said before))
    · exact List.mem_append_right _ new

/-- The live request ends with a verdict of its own. -/
theorem Tells.ended (tells : Tells r said known) {w : Waiting Runs.Work}
    {change : Runs.State → Runs.State} (result : Runs.Result)
    (failure : (change r.state).failure = failureAfter r.state.failure (w.ticket.generation, result)) :
    Tells (r.ended w (r.desk.slot.finish change)) (said ++ [(w.ticket.generation, result)])
      (known ++ [(w.ticket.generation, result)]) := by
  refine ⟨tells.named.ended w _ rfl, ?_, fun v member dead => ?_, fun v member => ?_⟩
  · rw [List.foldl_append, ← tells.failure]
    exact failure
  · exact List.mem_append_left _ (tells.dead v (Desk.mem_waiting_ended member) dead)
  · rcases List.mem_append.mp member with before | new
    · exact List.mem_append_left _ (tells.said before)
    · exact List.mem_append_right _ new

theorem tells_of_turn {after : Runs} {event : Runs.Event} {notices : List (Notice Nat Runs.Result)}
    (turn : Runs.Turn r event after notices) (sound : r.desk.Sound) (keeps : Keeps config r ledger)
    (tells : Tells r said known) :
    Tells after (said ++ Notice.outcomes notices) (known ++ ledger.verdicts config (lifted event)) := by
  have ⟨named, failure, dead, before⟩ := tells
  have quiet {more : List Verdict} : said ++ [] ⊆ known ++ more := fun v member =>
    List.mem_append_left _ (before (List.append_nil said ▸ member))
  cases turn with
  | @emptied sources span nothing =>
    have outcome : Notice.outcomes ([.started (r.desk.slot.generation + 1)] ++
        ((if sources = [] then none else r.deadline).map
          (Notice.alarm (r.desk.slot.generation + 1))).toList ++
        [.finished (r.desk.slot.generation + 1) (.ok ())] : List (Notice Nat Runs.Result)) =
        [(r.desk.slot.generation + 1, .ok ())] := by
      cases (if sources = [] then none else r.deadline) <;> rfl
    rw [outcome]
    exact tells.emptied sound keeps nothing
  | @begun sources span filter some query paged =>
    have outcome : Notice.outcomes ([.started (r.desk.slot.generation + 1)] ++
        (r.deadline.map (Notice.alarm (r.desk.slot.generation + 1))).toList ++
        [.asked (r.desk.slot.generation + 1) (Walk.start r.config filter).request] :
          List (Notice Nat Runs.Result)) = [] := by
      cases r.deadline <;> rfl
    rw [outcome, List.append_nil]
    exact tells.begun sound keeps some paged filter
  | @unheard g reply gone =>
    have still := keeps.closing_missed fun w live => Desk.ne_of_gone gone live
    cases reply <;> simp only [lifted, Ledger.verdicts, still, Notice.outcomes, List.filterMap_nil, List.append_nil] <;>
      exact tells
  | asleep _ =>
    simp only [lifted, Ledger.verdicts, Notice.outcomes, List.filterMap_nil, List.append_nil]
    exact tells
  | @walked w page walk live advance =>
    obtain ⟨f, walking, closed⟩ := keeps.closing_live live fun f =>
      if (f.received config page).fate = .applied then some (.ok ()) else none
    have goes : (f.received config page).fate = .pending := (walking.next advance).1
    have none : ledger.verdicts config (lifted (.reply w.ticket.generation (.ok page))) = [] :=
      closed.trans (by simp [goes])
    rw [none]
    refine ⟨named.resume _ _, failure.trans (by rw [List.append_nil]), fun v member gone => ?_, quiet⟩
    obtain ⟨u, waits, rfl⟩ := List.mem_map.mp member
    have ticket : (if u.ticket.generation = w.ticket.generation then
        { u with work := { w.work with walk } } else u).ticket = u.ticket := by
      split <;> rfl
    rw [ticket] at gone ⊢
    exact List.mem_append_left _ (dead u waits gone)
  | @loaded w page records live advance =>
    obtain ⟨f, walking, closed⟩ := keeps.closing_live live fun f =>
      if (f.received config page).fate = .applied then some (.ok ()) else none
    have applied : (f.received config page).fate = .applied := (walking.last advance).1
    have one : ledger.verdicts config (lifted (.reply w.ticket.generation (.ok page))) =
        [(w.ticket.generation, .ok ())] := closed.trans (by simp [applied])
    rw [one]
    exact tells.ended (.ok ()) rfl
  | @failed w causes live =>
    obtain ⟨_, _, closed⟩ := keeps.closing_live live fun _ => some (.error (.store causes))
    have one : ledger.verdicts config (lifted (.reply w.ticket.generation (.error causes))) =
        [(w.ticket.generation, .error (.store causes))] := closed
    have slot : w.ticket.slot = "executions" :=
      named.tickets w (Desk.find?_some (Desk.live?_eq_some_iff.mp live).1).1
    rw [one]
    refine tells.ended (.error (.store causes)) ?_
    rw [failureAfter, ← slot]
    · rfl
    · simp
  | @dropped w event found gone told =>
    have none : ledger.verdicts config (lifted event) = [] := by
      rcases told with ⟨reply, rfl⟩ | rfl
      · cases reply <;> exact keeps.closing_missed (fun v live => Desk.ne_of_dead found gone live) _
      · rfl
    have slot (v : Waiting Runs.Work) :
        Slot.IsLive (r.desk.settledSlot Runs.State.settled w) v.ticket ↔ r.desk.slot.IsLive v.ticket := by
      rw [Slot.isLive_iff, Slot.isLive_iff, Desk.settledSlot_generation, Desk.settledSlot_cancelled]
    rw [none, List.append_nil]
    refine ⟨named.ended w _ (Desk.settledSlot_name ..), ?_, fun v member lost => ?_, fun v member => ?_⟩
    · exact (congrArg Runs.State.failure (r.settled_state w)).trans failure
    · exact dead v (Desk.mem_waiting_ended member) (mt (slot v).mpr lost)
    · rcases List.mem_append.mp member with old | new
      · exact before old
      · exact List.mem_singleton.mp new ▸ dead w (Desk.find?_some found).1 gone
  | @expired g =>
    obtain ⟨state, _, _, waiting⟩ := r.desk.expire_frame g
    refine ⟨named.expire g, ?_, fun w member lost => ?_, quiet⟩
    · rw [List.foldl_append]
      exact (congrArg Runs.State.failure state).trans (failure.trans (failureAfter_cut ..).symm)
    · rw [waiting] at member
      refine tells.cut sound keeps member (or_iff_not_imp_right.mpr fun other live => lost ?_)
      have still : (r.desk.expire g).live? = some w := by
        rw [Desk.live?_expire, sound.live?_of_mem member live, Option.filter_some, if_pos (by simpa using other)]
      exact (Desk.live?_eq_some_iff.mp still).2
  | cancelled =>
    refine ⟨named.with_slot _ rfl, ?_, fun w member _ => tells.superseded sound keeps member, quiet⟩
    rw [List.foldl_append]
    exact failure.trans (failureAfter_cut ..).symm

theorem Keeps.verdicts_heard {c : Calendar} (keeps : Keeps config c.runs ledger) (event : Event) :
    ledger.verdicts config event =
      (c.heard? event).elim [] fun heard => ledger.verdicts config (lifted heard) := by
  match event with
  | .fetch sources span => rfl
  | .reload =>
    have span : c.state.span = ledger.head?.map Fetch.span := keeps.shows.span
    simp only [heard?, Ledger.verdicts, span]
    cases newest : ledger.head? with
    | none => rfl
    | some last =>
      have sources : c.state.sources = last.sources := keeps.shows.sources last newest
      simp only [sources, Option.map_some, Option.elim_some, lifted]
  | .reply (.runs g) reply => rfl
  | .reply (.names g) reply => rfl
  | .wake (.runs g) => rfl
  | .wake (.names g) => rfl
  | .expire g => rfl
  | .cancel => rfl

theorem fetched_tells {c : Calendar} (sound : c.runs.desk.Sound) (keeps : Keeps config c.runs ledger)
    (tells : Tells c.runs said known) (event : Event) :
    Tells (c.fetched event).1 (said ++ Notice.outcomes (c.fetched event).2)
      (known ++ ledger.verdicts config event) := by
  rw [keeps.verdicts_heard, fetched]
  cases c.heard? event with
  | none =>
    show Tells c.runs (said ++ []) (known ++ [])
    rw [List.append_nil, List.append_nil]
    exact tells
  | some heard => exact tells_of_turn (c.runs.handle_turn sound heard) sound keeps tells

end Telling

theorem run_tells (config : CalendarConfig) (deadline : Option Nat) (events : List Event) :
    let begun := new config deadline
    Tells (controller.run begun events).1.runs (Notice.outcomes (begun.saidByRuns events))
      (Ledger.verdictsOf config [] events) := by
  intro begun
  induction events using List.reverseRecOn with
  | nil =>
    exact ⟨Desk.new_named .., rfl, fun _ none => (List.not_mem_nil none).elim, List.Subset.refl _⟩
  | append_singleton events event ih =>
    have next := fetched_tells (run_sound config deadline events) (run_keeps config deadline events).1 ih event
    rw [run_concat, handle_fetched, Ledger.verdictsOf_concat, saidByRuns, Controller.collect_concat, Notice.outcomes_append]
    exact next

end RunQuery.Calendar
