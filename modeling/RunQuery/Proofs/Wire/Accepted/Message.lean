import RunQuery.Proofs.Wire.Accepted.Predicate
import RunQuery.Proofs.Wire.Message

/-!
What becomes of messages that are accepted. Their records may come as maps with their fields in any order or as
lists, so what holds of a message is kept by each field that is set. A filter ends up canonical: its predicate is
absent or collapsed; and then its wire form is read as the filter itself.
-/
namespace RunQuery

namespace Decode

section Fields

variable {σ : Type} {l : Limits} {d : Dialect} {names : List String} {Inv : σ → Prop}

theorem fields_keeps {room : Nat} {set : Nat → Scan → σ → Except DecodeError σ}
    (step : ∀ index s draft after, s.Within l → Inv draft → set index s draft = .ok after → Inv after)
    {entries : List (Scan × Scan)} (within : Scan.EntriesWithin l entries) {seen : List Nat} {draft m : σ}
    (start : Inv draft) (read : fields d room names set seen draft entries = .ok m) : Inv m := by
  induction entries generalizing seen draft with
  | nil =>
    cases read
    exact start
  | cons entry rest ih =>
    obtain ⟨key, value⟩ := entry
    obtain ⟨⟨_, _, ofValue⟩, others⟩ := within
    obtain ⟨k, _, read⟩ := bind_eq_ok read
    obtain ⟨index, _, read⟩ := bind_eq_ok read
    cases index with
    | none =>
      obtain ⟨_, _, read⟩ := bind_eq_ok read
      exact ih others start read
    | some index =>
      dsimp only at read
      split at read
      · cases read
      obtain ⟨next, one, read⟩ := bind_eq_ok read
      exact ih others (step index value draft next ofValue start one) read

theorem positions_keeps {set : Nat → Scan → σ → Except DecodeError σ}
    (step : ∀ index s draft after, s.Within l → Inv draft → set index s draft = .ok after → Inv after)
    {items : List Scan} (within : Scan.ItemsWithin l items) {index : Nat} {draft m : σ} (start : Inv draft)
    (read : positions names set index draft items = .ok m) : Inv m := by
  induction items generalizing index draft with
  | nil =>
    cases read
    exact start
  | cons item rest ih =>
    obtain ⟨first, others⟩ := within
    rw [positions] at read
    split at read
    · obtain ⟨next, one, read⟩ := bind_eq_ok read
      exact ih others (step index item draft next first start one) read
    · cases read

/-- What setting a field keeps holds of a record that is read, however it is spelled; and a record takes room. -/
theorem fieldsOf_keeps (Inv : σ → Prop) {room : Nat} {set : Nat → Nat → Scan → σ → Except DecodeError σ}
    (step : ∀ index s draft after, s.Within l → Inv draft → set (room - 1) index s draft = .ok after → Inv after)
    {s : Scan} (within : s.Within l) {draft m : σ} (start : Inv draft)
    (read : fieldsOf d room names set draft s = .ok m) : 0 < room ∧ Inv m := by
  match s, within with
  | .map entries, within =>
    rw [fieldsOf] at read
    split at read
    · cases read
    · exact ⟨Nat.pos_of_ne_zero ‹_›, fields_keeps step within.2 start read⟩
  | .list items, within =>
    rw [fieldsOf] at read
    split at read
    · cases read
    · exact ⟨Nat.pos_of_ne_zero ‹_›, positions_keeps step within.2 start read⟩
  | .leaf _, _ => cases read
  | .flawed, _ => cases read
  | .broken, _ => cases read

end Fields

section Items

variable {α : Type} {l : Limits} {P : α → Prop}

theorem mapM_keeps {decode : Scan → Except DecodeError α}
    (each : ∀ s a, s.Within l → decode s = .ok a → P a) {items : List Scan} (within : Scan.ItemsWithin l items)
    {found : List α} (read : items.mapM decode = .ok found) : found.length = items.length ∧ ∀ a ∈ found, P a := by
  induction items generalizing found with
  | nil =>
    cases read
    exact ⟨rfl, fun a member => nomatch member⟩
  | cons item rest ih =>
    rw [List.mapM_cons] at read
    obtain ⟨a, one, read⟩ := bind_eq_ok read
    obtain ⟨more, others, done⟩ := bind_eq_ok read
    cases done
    obtain ⟨same, all⟩ := ih within.2 others
    exact ⟨congrArg (· + 1) same, List.forall_mem_cons.mpr ⟨each item a within.1 one, all⟩⟩

theorem listOf_keeps (P : α → Prop) {room : Nat} {decode : Nat → Scan → Except DecodeError α}
    (each : ∀ s a, s.Within l → decode (room - 1) s = .ok a → P a) {s : Scan} (within : s.Within l)
    {found : List α} (read : listOf room decode s = .ok found) :
    0 < room ∧ l.count found.length ∧ ∀ a ∈ found, P a := by
  match s, within with
  | .list items, ⟨count, inside⟩ =>
    rw [listOf] at read
    split at read
    · cases read
    · obtain ⟨same, all⟩ := mapM_keeps each inside read
      exact ⟨Nat.pos_of_ne_zero ‹_›, same ▸ count, all⟩
  | .map _, _ => cases read
  | .leaf _, _ => cases read
  | .flawed, _ => cases read
  | .broken, _ => cases read

theorem optional_keeps {decode : Scan → Except DecodeError α} {s : Scan} {found : Option α}
    (read : optional decode s = .ok found) : ∀ a ∈ found, decode s = .ok a := by
  rintro a ⟨⟩
  unfold optional at read
  split at read
  · cases read
  · obtain ⟨b, one, same⟩ := map_eq_ok read
    cases same
    exact one

theorem required_eq_ok {name : String} {found : Option α} {a : α} (read : required name found = .ok a) :
    found = some a := by
  cases found with
  | none => cases read
  | some b => exact congrArg some (Except.ok.inj read)

theorem read_text_within (kept : l.Kept) {room : Nat} {s : Scan} (within : s.Within l) {t : String}
    (read : (s.read room >>= text) = .ok t) : l.scalar (.text t) := by
  obtain ⟨w, one, spelled⟩ := bind_eq_ok read
  exact text_within kept (Scan.read_within kept within one) spelled

end Items

end Decode

namespace Wire

variable {l : Limits} {room : Nat}

theorem optionalField_within {name : String} (short : (Text.utf8 name).length < 16) {value : Option Wire}
    (within : ∀ w ∈ value, w.Within l room) :
    ∀ field ∈ optionalField name value, (Text.utf8 field.1).length < 16 ∧ field.2.Within l room := by
  cases value with
  | none => exact fun field member => nomatch member
  | some w =>
    rintro field member
    obtain rfl := List.mem_singleton.mp member
    exact ⟨short, within w rfl⟩

theorem length_optionalField_le (name : String) (value : Option Wire) : (optionalField name value).length ≤ 1 := by
  cases value with
  | none => exact Nat.zero_le 1
  | some w => exact Nat.le_refl 1

end Wire

namespace Filter

/-- The predicate of a filter is absent or collapsed. -/
def Canonical (f : Filter) : Prop := ∀ p ∈ f.predicate, p.Collapsed

theorem Canonical.normalized {f : Filter} (canonical : f.Canonical) : f.normalized = f := by
  obtain ⟨predicate, params⟩ := f
  cases predicate with
  | none => rfl
  | some p => exact congrArg (Filter.mk · params) (canonical p rfl).normalized?

/-- A canonical filter that can be sent, with a wire form within the limits. -/
structure Kept (l : Limits) (room : Nat) (f : Filter) : Prop where
  canonical : f.Canonical
  sendable : f.Sendable
  within : f.toWire.Within l room

variable {l : Limits} {room : Nat}

theorem foldlM_putParam_kept (kept : l.Kept) {entries : List (Scan × Scan)}
    (within : Scan.EntriesWithin l entries) {found params : Dict Value}
    (before : Value.EntriesKept l room found.entries) (read : entries.foldlM (putParam room) found = .ok params) :
    params.entries.length ≤ found.entries.length + entries.length ∧ Value.EntriesKept l room params.entries := by
  induction entries generalizing found with
  | nil =>
    cases read
    exact ⟨Nat.le_refl _, before⟩
  | cons entry rest ih =>
    obtain ⟨⟨_, ofKey, ofValue⟩, others⟩ := within
    obtain ⟨next, one, read⟩ := bind_eq_ok read
    obtain ⟨key, spelled, one⟩ := bind_eq_ok one
    obtain ⟨value, decoded, done⟩ := bind_eq_ok one
    obtain ⟨w, scanned, ofWire⟩ := bind_eq_ok decoded
    cases done
    obtain ⟨bound, all⟩ := ih others
      (before.insert (Decode.read_text_within kept ofKey spelled)
        (Value.ofWire_kept kept (Scan.read_within kept ofValue scanned) ofWire)) read
    have more : (found.insert key value).entries.length ≤ found.entries.length + 1 :=
      Entries.length_insert_le key value found.entries
    exact ⟨by rw [List.length_cons]; omega, all⟩

theorem decodeParams_kept (kept : l.Kept) {s : Scan} (within : s.Within l) {params : Dict Value}
    (read : decodeParams room s = .ok params) :
    Value.EntriesWellFormed params.entries ∧ params.toWire.Within l room := by
  match s, within with
  | .map entries, ⟨count, inside⟩ =>
    rw [decodeParams] at read
    split at read
    next => cases read
    next roomy =>
      obtain ⟨bound, all⟩ := foldlM_putParam_kept kept inside (fun _ none => (List.not_mem_nil none).elim) read
      obtain ⟨less, rfl⟩ := Nat.exists_eq_add_one_of_ne_zero roomy
      exact ⟨all.formed, all.within kept (kept.fewer _ _ (by simpa [Dict.empty] using bound) count)⟩
  | .list _, _ => cases read
  | .leaf _, _ => cases read
  | .flawed, _ => cases read
  | .broken, _ => cases read

/-- What holds of a filter while its fields are set, with as much room for each as there is in the record. -/
structure Drafted (l : Limits) (room : Nat) (f : Filter) : Prop where
  predicate : ∀ p ∈ f.predicate, p.Collapsed ∧ p.Kept l room
  formed : Value.EntriesWellFormed f.params.entries
  params : f.params.isEmpty = false → f.params.toWire.Within l room

theorem Drafted.kept (kept : l.Kept) {f : Filter} (drafted : f.Drafted l room) : f.Kept l (room + 1) := by
  refine ⟨fun p standing => (drafted.predicate p standing).1,
    ⟨fun p standing => (drafted.predicate p standing).2.sendable, drafted.formed⟩, ?_⟩
  refine Wire.record_within kept ?_ fun field member => ?_
  · have one := Wire.length_optionalField_le "predicate" (f.predicate.map Predicate.toWire)
    have other := Wire.length_optionalField_le "params" (if f.params.isEmpty then none else some f.params.toWire)
    rw [List.length_append]
    omega
  rcases List.mem_append.mp member with one | other
  · refine Wire.optionalField_within (by decide) (fun w present => ?_) field one
    obtain ⟨p, standing, rfl⟩ := Option.map_eq_some_iff.mp present
    exact (drafted.predicate p standing).2.within
  · refine Wire.optionalField_within (by decide) (fun w present => ?_) field other
    cases none : f.params.isEmpty with
    | true =>
      rw [none] at present
      cases present
    | false =>
      rw [none] at present
      cases present
      exact drafted.params none

theorem decode_kept (kept : l.Kept) {d : Dialect} {s : Scan} (within : s.Within l) {f : Filter}
    (read : decode d room s = .ok f) : f.Kept l room := by
  have start : (⟨none, .empty⟩ : Filter).Drafted l (room - 1) := ⟨nofun, trivial, nofun⟩
  refine (Decode.fieldsOf_keeps (Filter.Drafted l (room - 1)) ?_ within start read).elim ?_
  · intro index s draft after inside drafted set
    match index with
    | 0 =>
      obtain ⟨found, one, done⟩ := bind_eq_ok set
      cases done
      refine { drafted with predicate := fun p normal => ?_ }
      obtain ⟨q, present, normal⟩ := Option.bind_eq_some_iff.mp normal
      obtain ⟨w, scanned, ofWire⟩ := bind_eq_ok (Decode.optional_keeps one q present)
      have keeps := Predicate.ofWire_kept kept (Scan.read_within kept inside scanned) ofWire
      exact ⟨Predicate.normalized?_collapsed q p normal, Predicate.normalized?_kept kept keeps p normal⟩
    | index + 1 =>
      obtain ⟨params, one, done⟩ := bind_eq_ok set
      cases done
      obtain ⟨formed, written⟩ := decodeParams_kept kept inside one
      exact { drafted with formed, params := fun _ => written }
  · intro roomy drafted
    obtain ⟨less, rfl⟩ := Nat.exists_eq_add_one.mpr roomy
    exact drafted.kept kept

/-- A filter that was accepted is accepted again, and comes back as it was. -/
theorem Kept.decode_ofWire {f : Filter} (keeps : f.Kept l room) (d : Dialect) :
    decode d room (Scan.ofWire f.toWire) = .ok f := by
  rw [Filter.decode_ofWire d keeps.sendable keeps.within.depth_le, keeps.canonical.normalized]

end Filter

namespace SortKey

variable {l : Limits} {room : Nat}

theorem decode_within (kept : l.Kept) {d : Dialect} {s : Scan} (within : s.Within l) {key : SortKey}
    (read : decode d room s = .ok key) : key.toWire.Within l room := by
  obtain ⟨draft, fields, read⟩ := bind_eq_ok read
  obtain ⟨column, named, read⟩ := bind_eq_ok read
  obtain ⟨direction, _, done⟩ := bind_eq_ok read
  cases done
  refine (Decode.fieldsOf_keeps (fun draft => ∀ column ∈ draft.1, l.scalar (.text column)) ?_ within
    (by rintro _ ⟨⟩) fields).elim ?_
  · intro index s draft after inside before set
    match index with
    | 0 =>
      obtain ⟨column, one, done⟩ := bind_eq_ok set
      cases done
      rintro _ ⟨⟩
      exact Decode.read_text_within kept inside one
    | index + 1 =>
      obtain ⟨direction, one, done⟩ := bind_eq_ok set
      cases done
      exact before
  · intro roomy columns
    obtain ⟨less, rfl⟩ := Nat.exists_eq_add_one.mpr roomy
    have sign : (Text.utf8 direction.name).length < 16 := by cases direction <;> decide
    exact Wire.pair_within kept (by decide)
      (Wire.within_of_scalar kept (columns column (Decode.required_eq_ok named)) _) (Wire.short_within kept sign _)

end SortKey

namespace Cursor

variable {l : Limits} {room : Nat}

theorem toWire_within (kept : l.Kept) {c : Cursor} (named : l.scalar (.text c.token)) :
    c.toWire.Within l (room + 1) := by
  cases c <;>
  exact Wire.pair_within kept (by decide) (Wire.short_within kept (by decide) _) (Wire.within_of_scalar kept named _)

theorem decode_within (kept : l.Kept) {d : Dialect} {s : Scan} (within : s.Within l) {c : Cursor}
    (read : decode d room s = .ok c) : c.toWire.Within l room := by
  obtain ⟨draft, fields, read⟩ := bind_eq_ok read
  obtain ⟨direction, _, read⟩ := bind_eq_ok read
  obtain ⟨token, named, done⟩ := bind_eq_ok read
  cases done
  refine (Decode.fieldsOf_keeps (fun draft => ∀ token ∈ draft.2, l.scalar (.text token)) ?_ within
    (by rintro _ ⟨⟩) fields).elim ?_
  · intro index s draft after inside before set
    match index with
    | 0 =>
      obtain ⟨direction, one, done⟩ := bind_eq_ok set
      cases done
      exact before
    | index + 1 =>
      obtain ⟨token, one, done⟩ := bind_eq_ok set
      cases done
      rintro _ ⟨⟩
      exact Decode.read_text_within kept inside one
  · intro roomy tokens
    obtain ⟨less, rfl⟩ := Nat.exists_eq_add_one.mpr roomy
    have name := tokens token (Decode.required_eq_ok named)
    split <;> exact toWire_within kept name

end Cursor

namespace Request

/-- The filter of a request is absent or canonical. -/
def Canonical (r : Request) : Prop := ∀ f ∈ r.filter, f.Canonical

theorem Canonical.normalized {r : Request} (canonical : r.Canonical) : r.normalized = r := by
  obtain ⟨filter, sort, limit, cursor⟩ := r
  cases filter with
  | none => rfl
  | some f => exact congrArg (fun f => Request.mk (some f) sort limit cursor) (canonical f rfl).normalized

/-- A canonical request that can be sent, with a wire form within the limits. -/
structure Kept (l : Limits) (room : Nat) (r : Request) : Prop where
  canonical : r.Canonical
  sendable : r.Sendable
  within : r.toWire.Within l room

variable {l : Limits} {room : Nat}

/-- What holds of a request while its fields are set, with as much room for each as there is in the record. -/
structure Drafted (l : Limits) (room : Nat) (r : Request) : Prop where
  filter : ∀ f ∈ r.filter, f.Kept l room
  sort : r.sort.isEmpty = false → (Wire.list (r.sort.map SortKey.toWire)).Within l room
  cursor : ∀ c ∈ r.cursor, c.toWire.Within l room

theorem Drafted.kept (kept : l.Kept) {r : Request} (drafted : r.Drafted l room) : r.Kept l (room + 1) := by
  refine ⟨fun f standing => (drafted.filter f standing).canonical,
    fun f standing => (drafted.filter f standing).sendable, ?_⟩
  have count (name : String) (value : Option Wire) := Wire.length_optionalField_le name value
  refine Wire.record_within kept ?_ fun field member => ?_
  · have filter := count "where" (r.filter.map Filter.toWire)
    have sort := count "sort" (if r.sort.isEmpty then none else some (.list (r.sort.map SortKey.toWire)))
    have limit := count "limit" (r.limit.map fun n => .int n.toNat)
    have cursor := count "cursor" (r.cursor.map Cursor.toWire)
    simp only [List.length_append]
    omega
  simp only [List.mem_append] at member
  rcases member with ((filter | sort) | limit) | cursor
  · refine Wire.optionalField_within (by decide) (fun w present => ?_) field filter
    obtain ⟨f, standing, rfl⟩ := Option.map_eq_some_iff.mp present
    exact (drafted.filter f standing).within
  · refine Wire.optionalField_within (by decide) (fun w present => ?_) field sort
    cases none : r.sort.isEmpty with
    | true =>
      rw [none] at present
      cases present
    | false =>
      rw [none] at present
      cases present
      exact drafted.sort none
  · refine Wire.optionalField_within (by decide) (fun w present => ?_) field limit
    obtain ⟨n, _, rfl⟩ := Option.map_eq_some_iff.mp present
    exact kept.small n.toNat n.toNat_lt
  · refine Wire.optionalField_within (by decide) (fun w present => ?_) field cursor
    obtain ⟨c, standing, rfl⟩ := Option.map_eq_some_iff.mp present
    exact drafted.cursor c standing

theorem decode_kept (kept : l.Kept) {d : Dialect} {s : Scan} (within : s.Within l) {r : Request}
    (read : decode d room s = .ok r) : r.Kept l room := by
  have start : (⟨none, [], none, none⟩ : Request).Drafted l (room - 1) := ⟨nofun, nofun, nofun⟩
  refine (Decode.fieldsOf_keeps (Request.Drafted l (room - 1)) ?_ within start read).elim ?_
  · intro index s draft after inside drafted set
    match index with
    | 0 =>
      obtain ⟨filter, one, done⟩ := bind_eq_ok set
      cases done
      have keeps (f : Filter) (present : f ∈ filter) := Decode.optional_keeps one f present
      exact { drafted with filter := fun f present => Filter.decode_kept kept inside (keeps f present) }
    | 1 =>
      obtain ⟨sort, one, done⟩ := bind_eq_ok set
      cases done
      obtain ⟨roomy, count, each⟩ := Decode.listOf_keeps (fun (key : SortKey) => key.toWire.Within l (room - 1 - 1))
        (fun _ _ within read => SortKey.decode_within kept within read) inside one
      have keys : Wire.ItemsWithin l (room - 1 - 1) (sort.map SortKey.toWire) :=
        Wire.itemsWithin_iff.mpr (List.forall_mem_map.mpr each)
      exact { drafted with sort := fun _ => ⟨roomy, by rwa [List.length_map], keys⟩ }
    | 2 =>
      obtain ⟨limit, one, done⟩ := bind_eq_ok set
      cases done
      exact { drafted with }
    | index + 3 =>
      obtain ⟨cursor, one, done⟩ := bind_eq_ok set
      cases done
      have keeps (c : Cursor) (present : c ∈ cursor) := Decode.optional_keeps one c present
      exact { drafted with cursor := fun c present => Cursor.decode_within kept inside (keeps c present) }
  · intro roomy drafted
    obtain ⟨less, rfl⟩ := Nat.exists_eq_add_one.mpr roomy
    exact drafted.kept kept

/-- A request that was accepted is accepted again, and comes back as it was. -/
theorem Kept.decode_ofWire {r : Request} (keeps : r.Kept l room) (d : Dialect) :
    decode d room (Scan.ofWire r.toWire) = .ok r := by
  rw [Request.decode_ofWire d keeps.sendable keeps.within.depth_le, keeps.canonical.normalized]

end Request

end RunQuery
