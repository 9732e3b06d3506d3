import RunQuery.Proofs.Wire.Predicate

/-!
Messages read back from their wire form, in either dialect. The fields of a record that is written stand in the
order in which its reader knows them, some of them left out; so each is handed on once, and what is left out
keeps what the reader began with.
-/
namespace RunQuery

namespace Wire

theorem entriesDepth_record_le {fields : List (String × Wire)} {room : Nat}
    (deep : (record fields).depth ≤ room) : 0 < room ∧ ∀ field ∈ fields, field.2.depth ≤ room - 1 := by
  rw [record, depth] at deep
  refine ⟨by omega, ?_⟩
  have inside : entriesDepth (fields.map fun field => (.text field.1, field.2)) ≤ room - 1 := by omega
  clear deep
  induction fields with
  | nil => exact fun field member => nomatch member
  | cons first rest ih =>
    obtain ⟨ofFirst, ofRest⟩ := Nat.max_le.mp inside
    rw [List.forall_mem_cons]
    exact ⟨(Nat.max_le.mp ofFirst).2, ih ofRest⟩

theorem itemsDepth_le_iff {items : List Wire} {room : Nat} :
    itemsDepth items ≤ room ↔ ∀ item ∈ items, item.depth ≤ room := by
  induction items with
  | nil => simp [itemsDepth]
  | cons item rest ih => rw [itemsDepth, Nat.max_le, ih, List.forall_mem_cons]

end Wire

theorem Scan.ofItems_eq_map (items : List Wire) : ofItems items = items.map ofWire := by
  induction items with
  | nil => rfl
  | cons item rest ih => rw [ofItems, ih, List.map_cons]

namespace Decode

section Fields

variable {σ : Type} {d : Dialect} {names : List String}

/-- Position of a name among others. -/
def position (names : List String) (name : String) : Nat := names.findIdx (· = name)

theorem findIdx?_eq_position {name : String} (known : name ∈ names) :
    names.findIdx? (· = name) = some (position names name) := by
  rw [List.findIdx?_eq_some_iff_findIdx_eq]
  exact ⟨List.findIdx_lt_length_of_exists ⟨name, known, decide_eq_true rfl⟩, rfl⟩

theorem position_inj {name other : String} (known : name ∈ names) (same : position names name = position names other)
    (alsoKnown : other ∈ names) : name = other := by
  have at? (s : String) (member : s ∈ names) : names[position names s]? = some s := by
    have bound : position names s < names.length :=
      List.findIdx_lt_length_of_exists ⟨s, member, decide_eq_true rfl⟩
    have found : names[position names s] = s := of_decide_eq_true (List.findIdx_getElem (p := (· = s)) (w := bound))
    rw [List.getElem?_eq_getElem bound, found]
  have one := at? name known
  rw [same, at? other alsoKnown] at one
  exact (Option.some.inj one).symm

/-- Hands fields on in the order in which they stand. -/
def handOn (names : List String) (set : Nat → Scan → σ → Except DecodeError σ) (draft : σ)
    (fields : List (String × Wire)) : Except DecodeError σ :=
  fields.foldlM (fun draft field => set (position names field.1) (Scan.ofWire field.2) draft) draft

theorem fields_eq_handOn {room : Nat} (set : Nat → Scan → σ → Except DecodeError σ) {written : List (String × Wire)}
    (known : ∀ field ∈ written, field.1 ∈ names) (unique : (written.map Prod.fst).Nodup) {seen : List Nat}
    (fresh : ∀ field ∈ written, position names field.1 ∉ seen) (draft : σ) :
    fields d room names set seen draft
      (Scan.ofEntries (written.map fun field => (.text field.1, field.2))) =
      handOn names set draft written := by
  induction written generalizing seen draft with
  | nil => rfl
  | cons first rest ih =>
    rw [List.forall_mem_cons] at known fresh
    obtain ⟨new, unique⟩ := List.nodup_cons.mp unique
    have others : ∀ field ∈ rest, position names field.1 ∉ position names first.1 :: seen := by
      intro field member
      rw [List.mem_cons, not_or]
      refine ⟨fun same => new ?_, fresh.2 field member⟩
      rw [← position_inj (known.2 field member) same known.1]
      exact List.mem_map_of_mem member
    have index : fieldIndex names (.text first.1) = .ok (some (position names first.1)) :=
      congrArg Except.ok (findIdx?_eq_position known.1)
    have key : (Scan.ofWire (.text first.1)).read room = .ok (.text first.1) := rfl
    rw [List.map_cons, Scan.ofEntries, fields, key, ok_bind, index, ok_bind]
    show (if position names first.1 ∈ seen then _ else _) = _
    rw [if_neg fresh.1, handOn, List.foldlM_cons]
    exact bind_congr (ih known.2 unique others)

/-- A record that is written is read field by field. -/
theorem fieldsOf_record {room : Nat} (set : Nat → Nat → Scan → σ → Except DecodeError σ) (distinct : names.Nodup)
    {written : List (String × Wire)} (known : List.Sublist (written.map Prod.fst) names) (roomy : 0 < room)
    (draft : σ) :
    fieldsOf d room names set draft (Scan.ofWire (.record written)) = handOn names (set (room - 1)) draft written := by
  rw [Wire.record, Scan.ofWire, fieldsOf, if_neg (Nat.ne_of_gt roomy)]
  exact fields_eq_handOn (set (room - 1)) (fun field member => known.subset (List.mem_map_of_mem member))
    (distinct.sublist known) (fun _ _ => List.not_mem_nil) draft

section HandOn

variable {set : Nat → Scan → σ → Except DecodeError σ} {draft m after : σ}

theorem handOn_append {early late : List (String × Wire)} (first : handOn names set draft early = .ok m)
    (second : handOn names set m late = .ok after) : handOn names set draft (early ++ late) = .ok after := by
  rw [handOn, List.foldlM_append]
  exact (congrArg (· >>= _) first).trans second

theorem handOn_cons {field : String × Wire} {rest : List (String × Wire)}
    (first : set (position names field.1) (Scan.ofWire field.2) draft = .ok m)
    (others : handOn names set m rest = .ok after) : handOn names set draft (field :: rest) = .ok after := by
  rw [handOn, List.foldlM_cons, first]
  exact others

theorem handOn_optionalField {name : String} {value : Option Wire} (absent : value = none → draft = after)
    (present : ∀ w, value = some w → set (position names name) (Scan.ofWire w) draft = .ok after) :
    handOn names set draft (optionalField name value) = .ok after := by
  cases value with
  | none => exact congrArg Except.ok (absent rfl)
  | some w => exact handOn_cons (present w rfl) rfl

end HandOn

end Fields

theorem sublist_optionalField (name : String) (value : Option Wire) :
    List.Sublist ((optionalField name value).map Prod.fst) [name] := by
  cases value with
  | none => exact List.nil_sublist _
  | some w => exact List.Sublist.refl _

theorem natBelow_natCast {bound n : Nat} (below : n < bound) : natBelow bound (.int n) = .ok n := by
  rw [natBelow, if_pos ⟨Int.natCast_nonneg n, below⟩]
  rfl

/-- What is not nothing is read as such. -/
theorem optional_ofWire {α : Type} {decode : Scan → Except DecodeError α} {w : Wire} {a : α}
    (present : w ≠ .null) (read : decode (Scan.ofWire w) = .ok a) :
    optional decode (Scan.ofWire w) = .ok (some a) := by
  have other : optional decode (Scan.ofWire w) = (decode (Scan.ofWire w)).map some := by
    cases w with
    | null => exact absurd rfl present
    | _ => rfl
  rw [other, read]
  rfl

/-- The items of a list that is written are read one by one. -/
theorem listOf_ofWire {α : Type} {decode : Nat → Scan → Except DecodeError α} {write : α → Wire} {room : Nat}
    {items : List α} (deep : (Wire.list (items.map write)).depth ≤ room)
    (read : ∀ a ∈ items, (write a).depth ≤ room - 1 → decode (room - 1) (Scan.ofWire (write a)) = .ok a) :
    listOf room decode (Scan.ofWire (.list (items.map write))) = .ok items := by
  rw [Wire.depth] at deep
  have inside : ∀ item ∈ items.map write, item.depth ≤ room - 1 := Wire.itemsDepth_le_iff.mp (by omega)
  rw [Scan.ofWire, listOf, if_neg (by omega), Scan.ofItems_eq_map]
  clear deep
  induction items with
  | nil => rfl
  | cons first rest ih =>
    rw [List.forall_mem_cons] at read
    rw [List.map_cons, List.forall_mem_cons] at inside
    rw [List.map_cons, List.map_cons, List.mapM_cons, read.1 inside.1, ok_bind, ih read.2 inside.2]
    rfl

end Decode

theorem SortKey.decode_ofWire (d : Dialect) {room : Nat} {key : SortKey} (deep : key.toWire.depth ≤ room) :
    SortKey.decode d room (Scan.ofWire key.toWire) = .ok key := by
  obtain ⟨room, rfl⟩ := Nat.exists_eq_add_one.mpr (Wire.entriesDepth_record_le deep).1
  obtain ⟨column, direction⟩ := key
  cases direction <;> rfl

theorem Cursor.decode_ofWire (d : Dialect) {room : Nat} {c : Cursor} (deep : c.toWire.depth ≤ room) :
    Cursor.decode d room (Scan.ofWire c.toWire) = .ok c := by
  cases c with
  | forward token =>
    obtain ⟨room, rfl⟩ := Nat.exists_eq_add_one.mpr (Wire.entriesDepth_record_le deep).1
    rfl
  | backward token =>
    obtain ⟨room, rfl⟩ := Nat.exists_eq_add_one.mpr (Wire.entriesDepth_record_le deep).1
    rfl

theorem Record.decode_ofWire (d : Dialect) {room : Nat} {r : Record} (formed : r.data.WellFormed)
    (deep : r.toWire.depth ≤ room) : Record.decode d room (Scan.ofWire r.toWire) = .ok r := by
  obtain ⟨roomy, inside⟩ := Wire.entriesDepth_record_le deep
  have data := Value.decode_ofWire formed (inside ("data", r.data.toWire) (by simp))
  have version : Decode.natBelow 0x10000000000000000 (.int r.version.toNat) = .ok r.version.toNat :=
    Decode.natBelow_natCast r.version.toNat_lt
  have known : List.Sublist ([("id", .text r.id), ("type", .text r.type), ("version", .int r.version.toNat),
      ("data", r.data.toWire)].map (Prod.fst : String × Wire → String)) ["id", "type", "version", "data"] :=
    List.Sublist.refl _
  refine bind_of_ok (a := ⟨some r.id, some r.type, some r.version, r.data⟩)
    ((Decode.fieldsOf_record _ (by decide) known roomy _).trans ?_) rfl
  refine Decode.handOn_cons rfl (Decode.handOn_cons rfl
    (Decode.handOn_cons (m := ⟨some r.id, some r.type, some r.version, .none⟩) ?_ (Decode.handOn_cons ?_ rfl)))
  · refine bind_of_ok version ?_
    rw [UInt64.ofNat_toNat]
    rfl
  · exact bind_of_ok data rfl

theorem Predicate.Sendable.toWire_ne_null {p : Predicate} (sendable : p.Sendable) : p.toWire ≠ .null := by
  cases p with
  | unknown kind raw =>
    obtain ⟨entries, rfl, _, _⟩ := sendable
    exact nofun
  | _ => exact nofun

namespace Filter

/-- The predicate is sendable, and the values of the parameters are well formed. -/
structure Sendable (f : Filter) : Prop where
  predicate : ∀ p ∈ f.predicate, p.Sendable
  params : Value.EntriesWellFormed f.params.entries

/-- The filter with its predicate in normal form. -/
def normalized (f : Filter) : Filter := { f with predicate := f.predicate.bind Predicate.normalized? }

/-- Takes up one parameter. -/
def putParam (room : Nat) (params : Dict Value) (entry : Scan × Scan) : Except DecodeError (Dict Value) := do
  let key ← entry.1.read room >>= Decode.text
  let value ← Value.decode room entry.2
  return params.insert key value

/-- Parameters after those that were found are put behind them. -/
theorem foldlM_putParam {params found : Dict Value} {entries : List (String × Value)}
    (whole : params.entries = found.entries ++ entries) (formed : Value.EntriesWellFormed entries) {room : Nat}
    (deep : Wire.entriesDepth (Value.entriesToWire entries) ≤ room) :
    (Scan.ofEntries (Value.entriesToWire entries)).foldlM (putParam room) found = .ok params := by
  induction entries generalizing found with
  | nil =>
    rw [List.append_nil] at whole
    exact congrArg Except.ok (Dict.ext whole.symm)
  | cons entry rest ih =>
    obtain ⟨first, others⟩ := formed
    obtain ⟨ofFirst, ofRest⟩ := Nat.max_le.mp deep
    have sorted := params.sorted
    rw [whole] at sorted
    have next : (found.insert entry.1 entry.2).entries = found.entries ++ [entry] :=
      Entries.insert_of_all_lt sorted.all_lt
    have value := Value.decode_ofWire first (Nat.max_le.mp ofFirst).2
    rw [Value.entriesToWire, Scan.ofEntries, List.foldlM_cons]
    refine bind_of_ok (a := found.insert entry.1 entry.2)
      (bind_of_ok (a := entry.1) rfl (bind_of_ok value rfl)) (ih ?_ others ofRest)
    rw [next, List.append_assoc, List.singleton_append, whole]

theorem decodeParams_toWire {params : Dict Value} (formed : Value.EntriesWellFormed params.entries) {room : Nat}
    (deep : params.toWire.depth ≤ room) : decodeParams room (Scan.ofWire params.toWire) = .ok params := by
  rw [Dict.toWire, Wire.depth] at deep
  have inside : Wire.entriesDepth (Value.entriesToWire params.entries) ≤ room - 1 := by omega
  have whole : params.entries = (Dict.empty : Dict Value).entries ++ params.entries := rfl
  rw [Dict.toWire, Scan.ofWire, decodeParams, if_neg (by omega)]
  exact foldlM_putParam whole formed inside

theorem decode_ofWire (d : Dialect) {room : Nat} {f : Filter} (sendable : f.Sendable)
    (deep : f.toWire.depth ≤ room) : decode d room (Scan.ofWire f.toWire) = .ok f.normalized := by
  obtain ⟨roomy, inside⟩ := Wire.entriesDepth_record_le deep
  have known : List.Sublist ((optionalField "predicate" (f.predicate.map Predicate.toWire) ++
      optionalField "params" (if f.params.isEmpty then none else some f.params.toWire)).map Prod.fst)
      ["predicate", "params"] := by
    rw [List.map_append]
    exact (Decode.sublist_optionalField ..).append (Decode.sublist_optionalField ..)
  refine (Decode.fieldsOf_record _ (by decide) known roomy _).trans ?_
  refine Decode.handOn_append (m := ⟨f.predicate.bind Predicate.normalized?, .empty⟩)
    (Decode.handOn_optionalField (fun absent => ?_) fun w present => ?_)
    (Decode.handOn_optionalField (fun absent => ?_) fun w present => ?_)
  · rw [Option.map_eq_none_iff.mp absent]
    rfl
  · obtain ⟨p, standing, rfl⟩ := Option.map_eq_some_iff.mp present
    have within := inside ("predicate", p.toWire) (by simp [standing, optionalField])
    obtain ⟨q, read, same⟩ := Predicate.decode_ofWire (sendable.predicate p standing) within
    have present := (sendable.predicate p standing).toWire_ne_null
    refine bind_of_ok (a := some q) (Decode.optional_ofWire present read) ?_
    rw [standing]
    exact congrArg (fun p => Except.ok (Filter.mk p .empty)) same
  · have empty : f.params = .empty := by
      by_cases none : f.params.isEmpty = true
      · exact Dict.ext (List.isEmpty_iff.mp none)
      · rw [if_neg none] at absent
        cases absent
    rw [normalized, empty]
  · by_cases none : f.params.isEmpty = true
    · rw [if_pos none] at present
      cases present
    · rw [if_neg none] at present
      cases present
      have within := inside ("params", f.params.toWire) (by simp [none, optionalField])
      exact bind_of_ok (decodeParams_toWire sendable.params within) rfl

end Filter

namespace Request

def Sendable (r : Request) : Prop := ∀ f ∈ r.filter, f.Sendable

/-- The request with the predicate of its filter in normal form. -/
def normalized (r : Request) : Request := { r with filter := r.filter.map Filter.normalized }

theorem decode_ofWire (d : Dialect) {room : Nat} {r : Request} (sendable : r.Sendable)
    (deep : r.toWire.depth ≤ room) : decode d room (Scan.ofWire r.toWire) = .ok r.normalized := by
  obtain ⟨filter, sort, limit, cursor⟩ := r
  obtain ⟨roomy, inside⟩ := Wire.entriesDepth_record_le deep
  have known : List.Sublist ((optionalField "where" (filter.map Filter.toWire) ++
      optionalField "sort" (if sort.isEmpty then none else some (.list (sort.map SortKey.toWire))) ++
      optionalField "limit" (limit.map fun n => .int n.toNat) ++
      optionalField "cursor" (cursor.map Cursor.toWire)).map Prod.fst) ["where", "sort", "limit", "cursor"] := by
    simp only [List.map_append]
    exact (((Decode.sublist_optionalField ..).append (Decode.sublist_optionalField ..)).append
      (Decode.sublist_optionalField ..)).append (Decode.sublist_optionalField ..)
  refine (Decode.fieldsOf_record _ (by decide) known roomy _).trans ?_
  refine Decode.handOn_append (m := ⟨filter.map Filter.normalized, sort, limit, none⟩)
    (Decode.handOn_append (m := ⟨filter.map Filter.normalized, sort, none, none⟩)
      (Decode.handOn_append (m := ⟨filter.map Filter.normalized, [], none, none⟩)
        (Decode.handOn_optionalField (fun absent => ?_) fun w present => ?_)
        (Decode.handOn_optionalField (fun absent => ?_) fun w present => ?_))
      (Decode.handOn_optionalField (fun absent => ?_) fun w present => ?_))
    (Decode.handOn_optionalField (fun absent => ?_) fun w present => ?_)
  · rw [Option.map_eq_none_iff.mp absent]
    rfl
  · obtain ⟨f, standing, rfl⟩ := Option.map_eq_some_iff.mp present
    subst standing
    have within := inside ("where", f.toWire) (by simp [optionalField])
    exact bind_of_ok (Decode.optional_ofWire nofun (Filter.decode_ofWire d (sendable f rfl) within)) rfl
  · cases sort with
    | nil => rfl
    | cons key keys => cases absent
  · cases sort with
    | nil => cases present
    | cons key keys =>
      cases present
      have within := inside ("sort", .list ((key :: keys).map SortKey.toWire)) (by simp [optionalField])
      exact bind_of_ok (Decode.listOf_ofWire within fun _ _ deep => SortKey.decode_ofWire d deep) rfl
  · rw [Option.map_eq_none_iff.mp absent]
  · obtain ⟨n, rfl, rfl⟩ := Option.map_eq_some_iff.mp present
    refine bind_of_ok (Decode.optional_ofWire nofun (Decode.natBelow_natCast n.toNat_lt)) ?_
    show Except.ok (Request.mk _ _ (some (UInt32.ofNat n.toNat)) none) = _
    rw [UInt32.ofNat_toNat]
  · rw [Option.map_eq_none_iff.mp absent]
    rfl
  · obtain ⟨c, rfl, rfl⟩ := Option.map_eq_some_iff.mp present
    have within := inside ("cursor", c.toWire) (by simp [optionalField])
    have some : c.toWire ≠ .null := by cases c <;> exact nofun
    exact bind_of_ok (Decode.optional_ofWire some (Cursor.decode_ofWire d within)) rfl

end Request

theorem Page.decode_ofWire (d : Dialect) {room : Nat} {p : Page} (formed : ∀ r ∈ p.records, r.data.WellFormed)
    (deep : p.toWire.depth ≤ room) : decode d room (Scan.ofWire p.toWire) = .ok p := by
  obtain ⟨records, next, previous⟩ := p
  obtain ⟨roomy, inside⟩ := Wire.entriesDepth_record_le deep
  have known : List.Sublist (([("records", Wire.list (records.map Record.toWire))] ++
      optionalField "next" (next.map Wire.text) ++
      optionalField "previous" (previous.map Wire.text)).map Prod.fst) ["records", "next", "previous"] := by
    simp only [List.map_append]
    exact ((List.Sublist.refl ["records"]).append (Decode.sublist_optionalField ..)).append
      (Decode.sublist_optionalField ..)
  have within := inside ("records", .list (records.map Record.toWire)) (by simp)
  refine (Decode.fieldsOf_record _ (by decide) known roomy _).trans ?_
  refine Decode.handOn_append (m := ⟨records, next, none⟩)
    (Decode.handOn_append (m := ⟨records, none, none⟩)
      (Decode.handOn_cons (bind_of_ok
        (Decode.listOf_ofWire within fun r member deep => Record.decode_ofWire d (formed r member) deep) rfl) rfl)
      (Decode.handOn_optionalField (fun absent => ?_) fun w present => ?_))
    (Decode.handOn_optionalField (fun absent => ?_) fun w present => ?_)
  · rw [Option.map_eq_none_iff.mp absent]
  · obtain ⟨token, rfl, rfl⟩ := Option.map_eq_some_iff.mp present
    rfl
  · rw [Option.map_eq_none_iff.mp absent]
  · obtain ⟨token, rfl, rfl⟩ := Option.map_eq_some_iff.mp present
    rfl

end RunQuery
