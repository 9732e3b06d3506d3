import RunQuery.Text.Parts
import Mathlib.Data.List.Infix
import Mathlib.Data.List.TakeWhile

/-!
Where text is cut, and what is left without its blanks; and numerals, which tell their numbers apart.
-/
namespace RunQuery.Text

section Cut

variable {mark text early late : List Char}

theorem eq_of_cut? (found : cut? mark text = some (early, late)) : text = early ++ (mark ++ late) := by
  induction text generalizing early with
  | nil => cases found
  | cons c rest ih =>
    rw [cut?] at found
    split at found
    next here =>
      cases found
      exact (List.prefix_iff_eq_append.mp (List.isPrefixOf_iff_prefix.mp here)).symm
    next =>
      obtain ⟨⟨before, after⟩, below, whole⟩ := Option.map_eq_some_iff.mp found
      cases whole
      exact congrArg (c :: ·) (ih below)

theorem cut?_eq_none_iff (present : mark ≠ []) : cut? mark text = none ↔ ¬ mark <:+: text := by
  induction text with
  | nil => simpa [cut?] using present
  | cons c rest ih =>
    rw [cut?, List.infix_cons_iff, not_or, ← ih, ← List.isPrefixOf_iff_prefix]
    split
    next here => simp [here]
    next absent => simp [absent]

/-- A text without the first character of a mark is cut where the text behind it is. -/
theorem cut?_append_left {first : Char} (absent : first ∉ early) (rest : List Char) :
    cut? (first :: mark) (early ++ rest) =
      (cut? (first :: mark) rest).map fun parts => (early ++ parts.1, parts.2) := by
  induction early with
  | nil => simp
  | cons c others ih =>
    rw [List.mem_cons, not_or] at absent
    have elsewhere : ¬ (first :: mark).isPrefixOf (c :: (others ++ rest)) = true := by
      simp [absent.1]
    rw [List.cons_append, cut?, if_neg elsewhere, ih absent.2, Option.map_map]
    rfl

/-- A text without the first character of a mark is cut where the mark follows. -/
theorem cut?_append {first : Char} (absent : first ∉ early) (late : List Char) :
    cut? (first :: mark) (early ++ (first :: mark ++ late)) = some (early, late) := by
  rw [cut?_append_left absent]
  simp [cut?]

/-- A mark of two characters that differ is found behind any text in which it does not stand. -/
theorem cut?_append_pair {first second : Char} (apart : first ≠ second) (absent : ¬ [first, second] <:+: early)
    (late : List Char) : cut? [first, second] (early ++ first :: second :: late) = some (early, late) := by
  induction early with
  | nil => simp [cut?]
  | cons c others ih =>
    rw [List.infix_cons_iff, not_or] at absent
    -- At the end of the text the first character of the mark may stand, and be followed by itself.
    have elsewhere : ¬ [first, second].isPrefixOf (c :: (others ++ first :: second :: late)) = true := by
      cases others with
      | nil => simp [Ne.symm apart]
      | cons d others => simpa using absent.1
    rw [List.cons_append, cut?, if_neg elsewhere, ih absent.2]
    rfl

end Cut

theorem trim_eq_nil_iff {text : List Char} : trim text = [] ↔ ∀ c ∈ text, isBlank c = true := by
  rw [trim, trimStart, trimEnd, List.reverse_eq_nil_iff, List.dropWhile_eq_nil_iff]
  constructor
  · intro rest c member
    rw [← List.takeWhile_append_dropWhile (p := isBlank) (l := text), List.mem_append] at member
    rcases member with early | late
    · exact List.mem_takeWhile_imp early
    · exact rest c (List.mem_reverse.mpr late)
  · intro all c member
    exact all c ((List.dropWhile_sublist _).subset (List.mem_reverse.mp member))

theorem numeral_injective : Function.Injective fun n : Nat => (toString n).toList := by
  intro i j same
  simp only [Nat.toString_eq_ofList_toDigits, String.toList_ofList] at same
  have numbers := congrArg (fun digits => Nat.ofDigitChars 10 digits 0) same
  simpa using numbers

theorem isDigit_of_mem_numeral {n : Nat} {c : Char} (member : c ∈ (toString n).toList) : c.isDigit = true := by
  rw [Nat.toString_eq_ofList_toDigits, String.toList_ofList] at member
  exact Nat.isDigit_of_mem_toDigits (by decide) (by decide) member

end RunQuery.Text
