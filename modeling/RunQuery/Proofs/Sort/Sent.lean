import RunQuery.Proofs.Json.Accepted
import RunQuery.Proofs.Sort.Listed

/-!
Sort specifications by where they come from. The empty one and those of a list of keys have each column once, and
toggles keep it so. What is read from a message has the keys that were sent, one by one: where a column was sent twice,
it stands twice, and it takes more than one toggle to be rid of it.
-/
namespace RunQuery.SortSpec

section Effects

variable {spec : SortSpec} {column other : String}

/-- A toggle never brings a repetition. -/
theorem count_toggle_le (spec : SortSpec) (column other : String) :
    (spec.toggle column).columns.count other ≤ max 1 (spec.columns.count other) := by
  rw [columns_toggle]
  cases standing : spec.direction? column with
  | none =>
    have absent : spec.columns.count column = 0 := List.count_eq_zero.mpr (direction?_eq_none_iff.mp standing)
    by_cases own : column = other
    · subst own
      simp [absent]
    · rw [List.count_append, List.count_singleton, if_neg (by simpa using own)]
      exact Nat.le_max_right ..
  | some direction =>
    cases direction with
    | ascending => exact Nat.le_max_right ..
    | descending => exact Nat.le_trans (List.erase_sublist.count_le other) (Nat.le_max_right ..)

theorem count_after_le (spec : SortSpec) (toggles : List String) (column : String) :
    (spec.after toggles).columns.count column ≤ max 1 (spec.columns.count column) := by
  induction toggles generalizing spec with
  | nil => exact Nat.le_max_right ..
  | cons toggled rest ih =>
    have step := count_toggle_le spec toggled column
    have run := ih (spec.toggle toggled)
    rw [after_cons]
    omega

/-- Three toggles of an unset column leave everything as it was, whatever stands twice. -/
theorem toggle_three_of_unset (unset : spec.direction? column = none) :
    ((spec.toggle column).toggle column).toggle column = spec := by
  have absent := direction?_eq_none_iff.mp unset
  have standing (direction : Direction) :
      direction? ⟨spec.keys ++ [⟨column, direction⟩]⟩ column = some direction := by
    simp [direction?_concat, unset]
  rw [toggle_of_unset unset, toggle_of_set (standing .ascending), change_concat absent]
  have second : SortSpec.toggle ⟨spec.keys ++ [⟨column, .descending⟩]⟩ column = _ :=
    toggle_of_set (standing .descending)
  rw [change_concat absent] at second
  simpa [Direction.cycle] using second

/-- A descending column is gone after one toggle exactly if it stood once. -/
theorem direction?_toggle_of_descending (last : spec.direction? column = some .descending) :
    (spec.toggle column).direction? column = none ↔ spec.columns.count column = 1 := by
  have present : 0 < spec.columns.count column := List.count_pos_iff.mpr (mem_columns_iff.mpr ⟨_, last⟩)
  have removed := columns_toggle spec column
  rw [last] at removed
  rw [direction?_eq_none_iff, removed, ← List.count_eq_zero, List.count_erase_self]
  omega

end Effects

section Sent

/-- The keys that are sent in a list, in their order. -/
def sentKeys (d : Dialect) (room : Nat) : Scan → List SortKey
  | .list items => items.filterMap fun item => (SortKey.decode d (room - 1) item).toOption
  | _ => []

theorem filterMap_toOption_of_mapM {ε α β : Type} {f : α → Except ε β} {items : List α} {found : List β}
    (done : items.mapM f = .ok found) : items.filterMap (fun item => (f item).toOption) = found := by
  induction items generalizing found with
  | nil =>
    cases done
    rfl
  | cons item rest ih =>
    rw [List.mapM_cons] at done
    obtain ⟨one, first, done⟩ := bind_eq_ok done
    obtain ⟨more, others, done⟩ := bind_eq_ok done
    cases done
    rw [List.filterMap_cons_some (b := one) (by simp [first, Except.toOption]), ih others]

/-- What is read has the keys that were sent. -/
theorem keys_of_decode {d : Dialect} {room : Nat} {s : Scan} {spec : SortSpec} (read : decode d room s = .ok spec) :
    spec.keys = sentKeys d room s := by
  obtain ⟨keys, listed, rfl⟩ := map_eq_ok read
  cases s with
  | list items =>
    rw [Decode.listOf] at listed
    split at listed
    · cases listed
    · exact (filterMap_toOption_of_mapM listed).symm
  | _ => cases listed

end Sent

/-- Where a sort specification comes from. -/
inductive Source where
  | new
  | listed (keys : List SortKey)
  | json (text : List Char)
  | msgPack (bytes : List UInt8)

namespace Source

def spec? : Source → Except DecodeError SortSpec
  | .new => .ok empty
  | .listed keys => .ok (ofList keys)
  | .json text => Json.decode decode text
  | .msgPack bytes => MsgPack.decode decode bytes

/-- No column is sent twice. A list of keys may name columns as often as it likes. -/
def Once : Source → Prop
  | .new => True
  | .listed _ => True
  | .json text => ((sentKeys ⟨false, false⟩ Json.room (Json.scan text).value).map SortKey.column).Nodup
  | .msgPack bytes => ((sentKeys ⟨true, true⟩ MsgPack.room (MsgPack.scan bytes)).map SortKey.column).Nodup

theorem distinct_iff {source : Source} {spec : SortSpec} (made : source.spec? = .ok spec) :
    spec.Distinct ↔ source.Once := by
  cases source with
  | new =>
    cases made
    exact iff_of_true distinct_empty trivial
  | listed keys =>
    cases made
    exact iff_of_true (distinct_ofList keys) trivial
  | json text => rw [Distinct, columns, keys_of_decode (Json.decoded_of_ok made), Once]
  | msgPack bytes => rw [Distinct, columns, keys_of_decode made, Once]

end Source

/-- A sort specification is a mapping unless it was read from a message that sends a column twice. Whatever it comes
from and however it is toggled, toggles bring no column to stand twice, and three toggles of an unset column leave
everything as it was. Where no column was sent twice, none stands twice, and a descending column is gone after one
toggle; and it is gone after one toggle exactly if it stands once. -/
theorem mapping_unless_sent_twice {source : Source} {spec : SortSpec} (made : source.spec? = .ok spec)
    (toggles : List String) :
    let reached := spec.after toggles
    (spec.Distinct ↔ source.Once) ∧
    (source.Once → reached.Distinct ∧ ∀ column, reached.direction? column = some .descending →
      (reached.toggle column).direction? column = none) ∧
    (∀ column, reached.direction? column = none →
      ((reached.toggle column).toggle column).toggle column = reached) ∧
    (∀ column, reached.columns.count column ≤ max 1 (spec.columns.count column)) ∧
    (∀ column, reached.direction? column = some .descending →
      ((reached.toggle column).direction? column = none ↔ reached.columns.count column = 1)) := by
  intro reached
  refine ⟨Source.distinct_iff made, fun once => ?_, fun column => toggle_three_of_unset, count_after_le spec toggles,
    fun column => direction?_toggle_of_descending⟩
  have distinct : reached.Distinct := ((Source.distinct_iff made).mpr once).after toggles
  refine ⟨distinct, fun column last => ?_⟩
  rw [distinct.direction?_toggle, last]
  rfl

/-- A list of two keys, one of them a list itself, that is toggled before its first column goes. -/
theorem mapping_unless_sent_twice_of_list :
    let source := Source.json "[\x7b\"column\":\"b\",\"direction\":\"desc\"\x7d,[\"a\",\"asc\"]]".toList
    let spec : SortSpec := ⟨[⟨"b", .descending⟩, ⟨"a", .ascending⟩]⟩
    let reached := spec.after ["a", "c"]
    source.spec? = .ok spec ∧ source.Once ∧ reached.Distinct ∧ (reached.toggle "b").direction? "b" = none ∧
    ((reached.toggle "d").toggle "d").toggle "d" = reached := by
  intro source spec reached
  have made : source.spec? = .ok spec := by decide +kernel
  obtain ⟨told, kept, three, -⟩ := mapping_unless_sent_twice made ["a", "c"]
  have once : source.Once := told.mp (by simp [spec, Distinct, columns])
  obtain ⟨distinct, gone⟩ := kept once
  exact ⟨made, once, distinct, gone "b" rfl, three "d" rfl⟩

/-- A column that is sent twice stands twice, and is still descending when it is toggled. -/
theorem repeated_column_stays :
    let key := "\x7b\"column\":\"a\",\"direction\":\"desc\"\x7d"
    ∃ spec, Json.decode decode ("[" ++ key ++ "," ++ key ++ "]").toList = .ok spec ∧ ¬ spec.Distinct ∧
      spec.direction? "a" = some .descending ∧ (spec.toggle "a").direction? "a" = some .descending := by
  intro key
  refine ⟨⟨[⟨"a", .descending⟩, ⟨"a", .descending⟩]⟩, ?_, ?_, rfl, rfl⟩
  · decide +kernel
  · simp [Distinct, columns]

end RunQuery.SortSpec
