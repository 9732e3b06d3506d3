import RunQuery.Proofs.Number.Magnitude
import RunQuery.Proofs.Store.Order

/-!
Whether sorting by several columns goes by an order of all records. Of two records it never puts each after the other.
But values that cannot be compared count as equal, so that a text ties with two numbers that do not tie with each
other, and three records may go in a circle. This takes a column that mixes such values; and as soon as a key is about
payloads, there are records that have them.
-/
namespace RunQuery

/-- In an order, steps of which none goes back lead where they lead one after the other. -/
theorem then_of_isLE {α : Type} {cmp : α → α → Ordering} [Std.TransCmp cmp] {a b c : α}
    (first : (cmp a b).isLE = true) (second : (cmp b c).isLE = true) : cmp a c = (cmp a b).then (cmp b c) := by
  cases step : cmp a b with
  | lt => exact Std.TransCmp.lt_of_lt_of_isLE step second
  | eq => exact Std.TransCmp.congr_left step
  | gt =>
    rw [step] at first
    cases first

namespace Value

section Mixing

variable {v w x : Value}

/-- A value that is there, but can be compared with neither of two others, of which one is greater. -/
def Stray (v w x : Value) : Prop :=
  v.isNone = false ∧ v.compare? w = Option.none ∧ v.compare? x = Option.none ∧
    (w.compare? x = some .lt ∨ w.compare? x = some .gt)

/-- One of three values strays from the two others. -/
def Mixed (v w x : Value) : Prop := Stray v w x ∨ Stray w v x ∨ Stray x v w

/-- What cannot be compared with one of two values that stand apart strays from both. -/
theorem stray_of_apart (apart : w.compare? x = some .lt ∨ w.compare? x = some .gt)
    (incomparable : ¬ (v.Comparable w ∧ v.Comparable x)) : Stray v w x := by
  have compared : (w.compare? x).isSome = true := by
    rcases apart with before | after
    · exact Option.isSome_of_eq_some before
    · exact Option.isSome_of_eq_some after
  have left : w.isNone = false := by cases w <;> first | rfl | simp at compared
  have right : x.isNone = false := by cases x <;> first | rfl | simp at compared
  have both : v.Comparable w ↔ v.Comparable x := by
    constructor
    · exact fun first => first.trans left fun _ _ => compared
    · exact fun first => first.trans right fun _ _ => isSome_compare?_comm w x ▸ compared
  have strange : ¬ v.Comparable w ∧ ¬ v.Comparable x := by simpa [← both] using incomparable
  obtain ⟨present, -, unlike⟩ := not_comparable_iff.mp strange.1
  exact ⟨present, unlike, (not_comparable_iff.mp strange.2).2.2, apart⟩

end Mixing

/-- A value at the end of a path, through maps that hold nothing else. -/
def nested (v : Value) : List String → Value
  | [] => v
  | name :: rest => .map [(name, nested v rest)]

/-- The names along a dotted path. -/
def names (path : String) : List String :=
  if path = "" then [] else (Text.segments '.' path.toList).map String.ofList

theorem atPath?_eq_follow (v : Value) (path : String) : v.atPath? path = v.follow (names path) := by
  rw [atPath?, names]
  split <;> rfl

theorem follow_nested_cons (v : Value) (name other : String) (path rest : List String) :
    (v.nested (name :: path)).follow (other :: rest) =
      if name = other then (v.nested path).follow rest else Option.none := by
  simp only [nested, follow, Entries.get?]
  split <;> rfl

theorem follow_nested (v : Value) (path : List String) : (v.nested path).follow path = some v := by
  induction path with
  | nil => rfl
  | cons name rest ih => rw [follow_nested_cons, if_pos rfl, ih]

end Value

namespace Record

/-- The columns that name the envelope of a record; all others are paths of its payload. -/
def envelope : List String := ["$id", "$type", "$version"]

theorem mem_envelope_iff {column : String} :
    column ∈ envelope ↔ column = "$id" ∨ column = "$type" ∨ column = "$version" := by
  simp [envelope]

theorem locate_of_payload {column : String} (payload : column ∉ envelope) (r : Record) :
    r.locate column = (r.data.follow (Value.names column)).getD .none := by
  rw [mem_envelope_iff, not_or, not_or] at payload
  obtain ⟨id, type, version⟩ := payload
  rw [locate, if_neg id, if_neg type, if_neg version, field?, Value.atPath?_eq_follow]

/-- What is on the envelopes of two records can be compared. -/
theorem isSome_compare?_of_envelope {column : String} (known : column ∈ envelope) (a b : Record) :
    ((a.locate column).compare? (b.locate column)).isSome = true := by
  rcases mem_envelope_iff.mp known with rfl | rfl | rfl
  · rfl
  · rfl
  · show (Number.compare? (Number.ofInt _) (Number.ofInt _)).isSome = true
    rw [Number.compare?, Number.isNaN_ofInt, Number.isNaN_ofInt]
    rfl

/-- A record with a value at a column of its payload, and nothing else. -/
def holding (column : String) (v : Value) : Record := ⟨"", "", 0, v.nested (Value.names column)⟩

theorem locate_holding {column : String} (payload : column ∉ envelope) (v : Value) :
    (holding column v).locate column = v := by
  rw [locate_of_payload payload, holding, Value.follow_nested]
  rfl

theorem locate_holding_of_envelope {column : String} (known : column ∈ envelope) (other : String) (v w : Value) :
    (holding other v).locate column = (holding other w).locate column := by
  rcases mem_envelope_iff.mp known with rfl | rfl | rfl <;> rfl

end Record

theorem Direction.orient_swap (direction : Direction) (o : Ordering) :
    direction.orient o.swap = (direction.orient o).swap := by
  cases direction <;> rfl

namespace SortKey

section Values

variable {v w x : Value}

theorem orderValues_swap (direction : Direction) (v w : Value) :
    orderValues direction w v = (orderValues direction v w).swap := by
  rw [orderValues, orderValues, Value.compare?_swap v w]
  cases v.isNone <;> cases w.isNone
  case false.false =>
    cases v.compare? w with
    | none => cases direction <;> rfl
    | some o => exact direction.orient_swap o
  all_goals rfl

/-- Beside a value that keeps two others from being compared, but does not stray from them, only absence tells the two
apart. -/
theorem orderValues_of_incomparable (direction : Direction)
    (incomparable : ¬ (v.Comparable w ∧ x.Comparable v ∧ x.Comparable w)) (near : ¬ Value.Stray x v w) :
    orderValues direction v w = compareOn Value.isNone v w := by
  have tied : (v.compare? w).getD .eq = .eq := by
    by_contra apart
    cases compared : v.compare? w with
    | none => simp [compared] at apart
    | some o =>
      rw [compared] at apart
      refine near (Value.stray_of_apart ?_ fun both => incomparable ⟨fun _ _ => by simp [compared], both⟩)
      cases o <;> simp_all
  rw [orderValues, compareOn, tied]
  cases v.isNone <;> cases w.isNone <;> cases direction <;> rfl

/-- Three values that are not mixed are ordered by one order of all values: by that of the column if all of them can be
compared, and else by whether they are there. -/
theorem orderValues_then {direction : Direction} (unmixed : ¬ Value.Mixed v w x)
    (first : (orderValues direction v w).isLE = true) (second : (orderValues direction w x).isLE = true) :
    orderValues direction v x = (orderValues direction v w).then (orderValues direction w x) := by
  by_cases comparable : v.Comparable w ∧ w.Comparable x ∧ v.Comparable x
  · obtain ⟨vw, wx, vx⟩ := comparable
    rw [orderValues_eq_columnOrder vw] at first ⊢
    rw [orderValues_eq_columnOrder wx] at second ⊢
    rw [orderValues_eq_columnOrder vx]
    exact then_of_isLE first second
  · obtain ⟨nearV, nearW, nearX⟩ : ¬ Value.Stray v w x ∧ ¬ Value.Stray w v x ∧ ¬ Value.Stray x v w := by
      simpa only [Value.Mixed, not_or] using unmixed
    have vw := orderValues_of_incomparable direction (fun all => comparable ⟨all.1, all.2.2.symm, all.2.1.symm⟩) nearX
    have wx := orderValues_of_incomparable direction (fun all => comparable ⟨all.2.1, all.1, all.2.2⟩) nearV
    have vx := orderValues_of_incomparable direction (fun all => comparable ⟨all.2.1.symm, all.2.2, all.1⟩) nearW
    rw [vw] at first ⊢
    rw [wx] at second ⊢
    rw [vx]
    exact then_of_isLE first second

/-- A number and a text at the same place of two payloads tie in every column. -/
theorem orderValues_nested (direction : Direction) (n : Number) (s : String) (path column : List String) :
    orderValues direction ((((Value.number n).nested path).follow column).getD .none)
      ((((Value.text s).nested path).follow column).getD .none) = .eq := by
  induction path generalizing column with
  | nil => cases column <;> cases direction <;> rfl
  | cons name rest ih =>
    cases column with
    | nil => cases direction <;> rfl
    | cons first others =>
      rw [Value.follow_nested_cons, Value.follow_nested_cons]
      split
      · exact ih others
      · rfl

theorem exists_orderValues_eq_gt (direction : Direction) :
    ∃ m n : Number, orderValues direction (.number m) (.number n) = .gt := by
  cases direction with
  | ascending => exact ⟨⟨0x4000000000000000⟩, ⟨0x3ff0000000000000⟩, by decide⟩
  | descending => exact ⟨⟨0x3ff0000000000000⟩, ⟨0x4000000000000000⟩, by decide⟩

end Values

section Keys

variable {key : SortKey} {keys : List SortKey} {a b c : Record}

/-- The first record does not come after the second, nor the second after the third, and yet the first comes after the
third. -/
def Circular (keys : List SortKey) (a b c : Record) : Prop :=
  orderBy keys a b ≠ .gt ∧ orderBy keys b c ≠ .gt ∧ orderBy keys a c = .gt

instance : Decidable (Circular keys a b c) := inferInstanceAs (Decidable (_ ∧ _ ∧ _))

/-- No key tells any two of three records apart. -/
def Level (keys : List SortKey) (a b c : Record) : Prop :=
  orderBy keys a b = .eq ∧ orderBy keys b c = .eq ∧ orderBy keys a c = .eq

/-- What three records have in the column of a key is mixed. -/
def Mixes (key : SortKey) (a b c : Record) : Prop :=
  Value.Mixed (a.locate key.column) (b.locate key.column) (c.locate key.column)

@[simp] theorem orderBy_cons (key : SortKey) (rest : List SortKey) (a b : Record) :
    orderBy (key :: rest) a b = (key.order a b).then (orderBy rest a b) := rfl

theorem orderBy_swap (keys : List SortKey) (a b : Record) : orderBy keys b a = (orderBy keys a b).swap := by
  induction keys with
  | nil => rfl
  | cons key rest ih => rw [orderBy_cons, orderBy_cons, Ordering.swap_then, ih, order, order, orderValues_swap]

/-- Where records go in a circle, the first key that tells any two of them apart mixes them. -/
theorem Circular.mixes (circular : Circular keys a b c) :
    ∃ earlier key later, keys = earlier ++ key :: later ∧ Level earlier a b c ∧ key.Mixes a b c := by
  induction keys with
  | nil => cases circular.2.2
  | cons key rest ih =>
    by_cases mixed : key.Mixes a b c
    · exact ⟨[], key, rest, rfl, ⟨rfl, rfl, rfl⟩, mixed⟩
    obtain ⟨ab, bc, ac⟩ := circular
    have first := Ordering.isLE_then_iff_and.mp (Ordering.ne_gt_iff_isLE.mp ab)
    have second := Ordering.isLE_then_iff_and.mp (Ordering.ne_gt_iff_isLE.mp bc)
    have whole : key.order a c = (key.order a b).then (key.order b c) := orderValues_then mixed first.1 second.1
    rw [orderBy_cons, whole] at ac
    -- if the key told one of the steps apart, it would put the first record before the third
    obtain ⟨stepAB, stepBC⟩ : key.order a b = .eq ∧ key.order b c = .eq := by
      cases stepAB : key.order a b <;> cases stepBC : key.order b c <;> simp_all
    rw [stepAB, stepBC] at whole ac
    rw [orderBy_cons, stepAB] at ab
    rw [orderBy_cons, stepBC] at bc
    obtain ⟨earlier, decisive, later, rfl, ⟨levelAB, levelBC, levelAC⟩, mixed⟩ := ih ⟨ab, bc, ac⟩
    refine ⟨key :: earlier, decisive, later, rfl, ⟨?_, ?_, ?_⟩, mixed⟩
    · simp [stepAB, levelAB]
    · simp [stepBC, levelBC]
    · simp [whole, levelAC]

theorem not_mixes_of_envelope (known : key.column ∈ Record.envelope) : ¬ key.Mixes a b c := by
  rintro (stray | stray | stray)
  all_goals
    obtain ⟨-, apart, -⟩ := stray
    exact Option.isSome_iff_ne_none.mp (Record.isSome_compare?_of_envelope known _ _) apart

theorem orderBy_holding (keys : List SortKey) (column : String) (n : Number) (s : String) :
    orderBy keys (.holding column (.number n)) (.holding column (.text s)) = .eq := by
  induction keys with
  | nil => rfl
  | cons key rest ih =>
    have tied : key.order (.holding column (.number n)) (.holding column (.text s)) = .eq := by
      rw [order]
      by_cases known : key.column ∈ Record.envelope
      · rw [Record.locate_holding_of_envelope known column (.number n) (.text s)]
        exact orderValues_self ..
      · rw [Record.locate_of_payload known, Record.locate_of_payload known]
        exact orderValues_nested ..
    simp [tied, ih]

/-- The first key that is about payloads tells two records apart that hold numbers in its column. -/
theorem exists_orderBy_holding_eq_gt (payload : ∃ key ∈ keys, key.column ∉ Record.envelope) :
    ∃ column m n, orderBy keys (.holding column (.number m)) (.holding column (.number n)) = .gt := by
  induction keys with
  | nil => simp at payload
  | cons key rest ih =>
    by_cases known : key.column ∈ Record.envelope
    · have others : ∃ key ∈ rest, key.column ∉ Record.envelope := by simpa [known] using payload
      obtain ⟨column, m, n, after⟩ := ih others
      have tied : key.order (.holding column (.number m)) (.holding column (.number n)) = .eq := by
        rw [order, Record.locate_holding_of_envelope known column (.number m) (.number n)]
        exact orderValues_self ..
      exact ⟨column, m, n, by simp [tied, after]⟩
    · obtain ⟨m, n, after⟩ := exists_orderValues_eq_gt key.direction
      exact ⟨key.column, m, n, by simp [order, Record.locate_holding known, after]⟩

theorem exists_circular_iff : (∃ a b c, Circular keys a b c) ↔ ∃ key ∈ keys, key.column ∉ Record.envelope := by
  constructor
  · rintro ⟨a, b, c, circular⟩
    obtain ⟨earlier, key, later, rfl, -, mixed⟩ := circular.mixes
    exact ⟨key, by simp, fun known => not_mixes_of_envelope known mixed⟩
  · intro payload
    obtain ⟨column, m, n, after⟩ := exists_orderBy_holding_eq_gt payload
    -- a text at the same place ties with both numbers
    refine ⟨.holding column (.number m), .holding column (.text ""), .holding column (.number n), ?_, ?_, after⟩
    · rw [orderBy_holding]
      decide
    · rw [orderBy_swap, orderBy_holding]
      decide

end Keys

/-- The order that sorting goes by never puts each of two records after the other. It may put three records in a
circle, but only where the first key that tells any two of them apart mixes them: one has a value there that can be
compared with neither of the others', and these stand apart. Some records go in a circle exactly if a key is about
payloads; by what is on the envelopes, all records are in order. -/
theorem circular_only_where_mixed (keys : List SortKey) :
    (∀ a b, ¬ (orderBy keys a b = .gt ∧ orderBy keys b a = .gt)) ∧
    (∀ a b c, Circular keys a b c →
      ∃ earlier key later, keys = earlier ++ key :: later ∧ Level earlier a b c ∧ key.Mixes a b c) ∧
    ((∃ a b c, Circular keys a b c) ↔ ∃ key ∈ keys, key.column ∉ Record.envelope) := by
  refine ⟨?_, fun a b c circular => circular.mixes, exists_circular_iff⟩
  rintro a b ⟨after, before⟩
  rw [orderBy_swap, after] at before
  cases before

/-- In an ascending column a text ties with two numbers, of which the greater comes after the smaller. -/
theorem text_between_numbers_circular :
    let run (id : String) (rank : Value) : Record := ⟨id, "execution", 1, .map [("rank", rank)]⟩
    Circular [⟨"rank", .ascending⟩] (run "a" (.number ⟨0x4000000000000000⟩)) (run "b" (.text "x"))
      (run "c" (.number ⟨0x3ff0000000000000⟩)) := by
  decide +kernel

end SortKey

end RunQuery
