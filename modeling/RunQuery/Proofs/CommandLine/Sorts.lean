import RunQuery.Proofs.CommandLine.Filters
import RunQuery.Proofs.Sort.Listed

/-!
Sort keys of a command line. Each word toggles its column once for ascending and twice for descending. That sets a
column that is unset, so words for distinct columns make the specification of their keys. A column that is named again
goes on from where it stands: it gets the direction that is asked for last only if its toggles so far have come round.
-/
namespace RunQuery.CommandLine

theorem sort_addSort (nav : Navigator) (key : SortKey) : (addSort nav key).sort = nav.sort.after key.presses := by
  rw [addSort, SortKey.presses]
  cases key.direction <;> rfl

theorem sort_foldl_addSort (nav : Navigator) (keys : List SortKey) :
    (keys.foldl addSort nav).sort = nav.sort.after (SortSpec.presses keys) := by
  induction keys generalizing nav with
  | nil => rfl
  | cons key rest ih =>
    rw [List.foldl_cons, ih, sort_addSort, SortSpec.presses, SortSpec.presses, List.flatMap_cons, SortSpec.after_append]

/-- Filters leave the sort as it is. -/
theorem sort_addFilters {index : Nat} {nav done : Navigator} {words : List String}
    (read : addFilters index nav words = .ok done) :
    done.sort = nav.sort := by
  induction words generalizing index nav with
  | nil =>
    cases read
    rfl
  | cons raw rest ih =>
    rw [addFilters] at read
    split at read
    next => cases read
    next filter _ =>
      have later : done.sort = (nav.setFilter filter).sort := ih read
      exact later

/-- What a command line sorts by is made by the toggles of its keys. -/
theorem sort_navigator {pageSize : PageSize} {filters sorts : List String} {nav : Navigator}
    (built : navigator pageSize filters sorts = .ok nav) :
    nav.sort = SortSpec.empty.after (SortSpec.presses (sorts.map sortKeyOf)) := by
  obtain ⟨done, read, rfl⟩ := map_eq_ok built
  rw [sort_foldl_addSort, sort_addFilters read]
  rfl

/-- What a command line sorts by, for any words. Where no column is named twice, it sorts by the keys of the words, in
their order. In general each column stands at most once, in the order of the toggles that last took the columns in, and
is set exactly if its toggles have not come round; of a column that is named more than once, the direction asked for
last, which is that of the specification of all keys, stands exactly if the toggles of the words before have come
round. -/
theorem sort_words_toggle {pageSize : PageSize} {filters sorts : List String} {nav : Navigator}
    (built : navigator pageSize filters sorts = .ok nav) :
    let keys := sorts.map sortKeyOf
    ((keys.map SortKey.column).Nodup → nav.sort = SortSpec.ofList keys ∧ nav.sort.keys = keys) ∧
    nav.sort.Distinct ∧
    (nav.sort = SortSpec.empty.after (SortSpec.presses keys) ∧ SortSpec.InOrder (SortSpec.presses keys)) ∧
    (∀ column, column ∈ nav.sort.columns ↔ ¬ 3 ∣ (SortSpec.presses keys).count column) ∧
    ∀ early key late, keys = early ++ key :: late → key.column ∉ late.map SortKey.column →
      (SortSpec.ofList keys).direction? key.column = some key.direction ∧
      (nav.sort.direction? key.column = some key.direction ↔ 3 ∣ (SortSpec.presses early).count key.column) := by
  intro keys
  have direction (column : String) : nav.sort.direction? column =
      Nat.iterate Direction.cycle ((SortSpec.presses keys).count column) none := by
    rw [sort_navigator built]
    exact SortSpec.distinct_empty.direction?_after ..
  refine ⟨fun distinct => ?_, ?_, ⟨sort_navigator built, SortSpec.inOrder _⟩, fun column => ?_,
    fun early key late whole last => ⟨?_, ?_⟩⟩
  · have fresh : ∀ key ∈ keys, key.column ∉ SortSpec.empty.columns := fun _ _ => List.not_mem_nil
    obtain ⟨pressed, listed⟩ := SortSpec.after_presses_of_fresh distinct fresh
    rw [sort_navigator built]
    exact ⟨pressed, (congrArg SortSpec.keys pressed).trans listed⟩
  · rw [sort_navigator built]
    exact SortSpec.distinct_empty.after _
  · rw [← not_iff_not, not_not, ← SortSpec.direction?_eq_none_iff, direction, SortSpec.iterate_cycle_eq_self_iff]
  · rw [whole]
    exact SortSpec.direction?_ofList last
  · rw [direction, whole, SortSpec.count_presses_of_last last]
    exact SortSpec.iterate_cycle_steps ..

/-- Columns that are named once, and a column whose earlier toggles come round. -/
theorem sort_words_toggle_round :
    ∃ once again : Navigator,
      navigator default ["status=ok"] ["b:desc", "a:b"] = .ok once ∧
      ((["b:desc", "a:b"].map sortKeyOf).map SortKey.column).Nodup ∧
      once.sort.keys = ["b:desc", "a:b"].map sortKeyOf ∧
      navigator default [] ["a", "b", "a:desc", "a"] = .ok again ∧
      again.sort.direction? "a" = some .ascending := by
  obtain ⟨once, built⟩ : ∃ once, navigator default ["status=ok"] ["b:desc", "a:b"] = .ok once := ⟨_, rfl⟩
  obtain ⟨again, rebuilt⟩ : ∃ again, navigator default [] ["a", "b", "a:desc", "a"] = .ok again := ⟨_, rfl⟩
  have distinct : ((["b:desc", "a:b"].map sortKeyOf).map SortKey.column).Nodup := by decide +kernel
  obtain ⟨listed, -⟩ := sort_words_toggle built
  obtain ⟨-, -, -, -, last⟩ := sort_words_toggle rebuilt
  refine ⟨once, again, built, distinct, (listed distinct).2, rebuilt, ?_⟩
  refine (last [⟨"a", .ascending⟩, ⟨"b", .ascending⟩, ⟨"a", .descending⟩] ⟨"a", .ascending⟩ [] ?_ ?_).2.mpr ?_
  · decide +kernel
  · decide
  · decide +kernel

/-- A column that is asked to descend twice ascends. -/
theorem repeated_word_turns_round :
    ∃ nav, navigator default [] ["a:desc", "a:desc"] = .ok nav ∧ nav.sort = ⟨[⟨"a", .ascending⟩]⟩ ∧
      SortSpec.ofList (["a:desc", "a:desc"].map sortKeyOf) = ⟨[⟨"a", .descending⟩]⟩ ∧
      nav.sort ≠ SortSpec.ofList (["a:desc", "a:desc"].map sortKeyOf) := by
  refine ⟨_, rfl, ?_, ?_, ?_⟩
  · decide +kernel
  · decide +kernel
  · decide +kernel

end RunQuery.CommandLine
