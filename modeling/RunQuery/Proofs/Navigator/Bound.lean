import RunQuery.Proofs.Navigator.Moves
import RunQuery.Proofs.Store.Conjunction

/-!
Placeholders of the filter that a navigator sends. The parameters of a filter are never taken away from it: a second
filter adds its own to them, an edit leaves them as they are, and of a filter that is gone the placeholders are gone
too. So a navigator to which only bound filters are given has a bound filter.
-/
namespace RunQuery

/-- An edit leaves the placeholders of the predicate, and brings those of the replacement. -/
theorem Filter.validate_replaceAt {root : Predicate} {params : Dict Value} {path : Path}
    {replacement after : Option Predicate} (bound : Filter.validate ⟨some root, params⟩ = .ok ())
    (binds : ∀ new ∈ replacement, ∀ name ∈ new.bindNames, params.contains name = true)
    (done : root.replaceAt path replacement = .ok after) :
    ∀ p ∈ after, Filter.validate ⟨some p, params⟩ = .ok () := by
  rintro p rfl
  obtain ⟨node, found, leaves⟩ := Predicate.leaves_replaceAt done
  have before := Predicate.leaves_at? found
  rw [Option.toList_some, Predicate.leavesOf_singleton] at leaves
  rw [validate_eq_ok_iff] at bound ⊢
  rintro _ ⟨⟩ name member
  obtain ⟨leaf, inside, named⟩ := Predicate.mem_bindNames.mp member
  have old (standing : leaf ∈ root.leaves) : params.contains name = true :=
    bound root rfl name (Predicate.mem_bindNames.mpr ⟨leaf, standing, named⟩)
  rw [leaves, List.mem_append, List.mem_append] at inside
  rcases inside with (left | put) | right
  · exact old (by simp [before, left])
  · obtain ⟨new, given, there⟩ := Predicate.mem_leavesOf.mp put
    exact binds new (Option.mem_toList.mp given) name (Predicate.mem_bindNames.mpr ⟨leaf, there, named⟩)
  · exact old (by simp [before, right])

namespace Navigator

/-- The standing filter, if there is one, binds all its placeholders. -/
def Bound (nav : Navigator) : Prop := ∀ f ∈ nav.filter, f.validate = .ok ()

/-- A filter that is set binds its placeholders by itself; a replacement names only those that the standing filter
binds. -/
def Move.Binds (nav : Navigator) : Move → Prop
  | .act (.setFilter filter) => filter.validate = .ok ()
  | .act (.editFilter _ replacement) =>
    ∀ f ∈ nav.filter, ∀ new ∈ replacement, ∀ name ∈ new.bindNames, f.params.contains name = true
  | _ => True

/-- Each of some moves binds, in the state that it meets. -/
def AllBind (nav : Navigator) : List Move → Prop
  | [] => True
  | m :: rest => m.Binds nav ∧ AllBind (nav.move m) rest

variable {nav : Navigator}

theorem Bound.setFilter (bound : Bound nav) {filter : Filter} (valid : filter.validate = .ok ()) :
    Bound (nav.setFilter filter) := by
  unfold Bound Navigator.setFilter
  cases standing : nav.filter with
  | none =>
    rintro f ⟨⟩
    exact valid
  | some old =>
    rintro f ⟨⟩
    exact Filter.validate_both (bound old standing) valid

theorem Bound.editFilter (bound : Bound nav) {next : Navigator} {path : Path} {replacement : Option Predicate}
    (binds : (Move.act (.editFilter path replacement)).Binds nav)
    (edited : nav.editFilter path replacement = .ok next) : Bound next := by
  obtain ⟨root, params, after, standing, replaced, rfl⟩ := editFilter_eq_ok edited
  intro f kept
  obtain ⟨p, left, rfl⟩ := Option.map_eq_some_iff.mp kept
  exact Filter.validate_replaceAt (bound _ standing) (binds _ standing) replaced p left

/-- No other action touches the filter, but to drop it. -/
theorem Bound.apply (bound : Bound nav) {action : Action} {next : Navigator} {effect : Effect}
    (binds : (Move.act action).Binds nav) (applied : nav.apply action = .ok (next, effect)) : Bound next := by
  cases action with
  | setFilter filter =>
    cases applied
    exact bound.setFilter binds
  | clearFilter =>
    cases applied
    exact nofun
  | editFilter path replacement => exact bound.editFilter binds (apply_edit applied)
  | _ =>
    unfold Bound
    rw [apply_filter applied rfl]
    exact bound

theorem Bound.move (bound : Bound nav) {m : Move} (binds : m.Binds nav) : Bound (nav.move m) := by
  cases m with
  | act action =>
    cases applied : nav.apply action with
    | error e => rwa [move_of_error applied]
    | ok moved =>
      rw [move_of_ok applied]
      exact bound.apply binds applied
  | load page => exact bound

theorem Bound.replay (bound : Bound nav) {moves : List Move} (binds : AllBind nav moves) :
    Bound (nav.replay moves) := by
  induction moves generalizing nav with
  | nil => exact bound
  | cons m rest ih => exact ih (bound.move binds.1) binds.2

/-- After any moves that bind their placeholders, whatever they take out of the filter or put into it, the request
that is sent has a filter that binds its own. -/
theorem request_stays_bound (size : PageSize) (moves : List Move) (binds : AllBind (new size) moves) :
    ∀ f ∈ ((new size).replay moves).toRequest.filter, f.validate = .ok () := by
  have start : Bound (new size) := nofun
  exact start.replay binds

/-- A replacement uses a placeholder of the first filter, the node that named it is taken out, and the second filter
binds another placeholder anew. -/
theorem request_stays_bound_edited :
    let leaf (location name : String) : Predicate := .compare ⟨location, .eq, .bind name⟩
    let first : Filter := ⟨some (.and [leaf "a" "s", .not (leaf "b" "t")]),
      Dict.ofList [("s", .text "one"), ("t", .text "two")]⟩
    let moves : List Move := [.act (.setFilter first), .load ⟨[], some "token", none⟩,
      .act (.editFilter [0] (some (leaf "c" "t"))), .act (.setFilter ⟨some (leaf "d" "s"), Dict.ofList [("s", .none)]⟩),
      .act (.editFilter [1, 0] none), .act .nextPage]
    let request := ((new default).replay moves).toRequest
    AllBind (new default) moves ∧ request.filter.bind Filter.predicate = some (.and [leaf "c" "t", leaf "d" "s"]) ∧
    request.cursor = some (.forward "token") ∧ ∀ f ∈ request.filter, f.validate = .ok () := by
  intro leaf first moves request
  have binds : AllBind (new default) moves := by
    refine ⟨rfl, trivial, ?_, rfl, ?_, trivial, trivial⟩
    · rintro f ⟨⟩ p ⟨⟩ name member
      obtain rfl : name = "t" := List.mem_singleton.mp member
      rfl
    · rintro f ⟨⟩ p ⟨⟩
  exact ⟨binds, rfl, rfl, request_stays_bound default moves binds⟩

end Navigator

end RunQuery
