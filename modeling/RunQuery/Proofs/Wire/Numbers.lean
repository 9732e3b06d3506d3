import RunQuery.Proofs.Wire.Accepted.Message

/-!
Messages with other numbers in them. To put another number in the place of each changes neither the shape of a
message nor its texts: it is written with the numbers replaced, and what was canonical or could be sent still is.
-/
namespace RunQuery

variable {l : Limits} {room : Nat} (ρ : Number → Number)

namespace Wire

mutual

/-- The numbers in a tree, from left to right. Keys are not looked into. -/
def numbers : Wire → List Number
  | .double n => [n]
  | .list items => itemsNumbers items
  | .map entries => entriesNumbers entries
  | _ => []

def itemsNumbers : List Wire → List Number
  | [] => []
  | item :: rest => item.numbers ++ itemsNumbers rest

def entriesNumbers : List (Wire × Wire) → List Number
  | [] => []
  | (_, value) :: rest => value.numbers ++ entriesNumbers rest

end

mutual

/-- The tree with another number in the place of each. -/
def mapNumbers : Wire → Wire
  | .double n => .double (ρ n)
  | .list items => .list (mapItems items)
  | .map entries => .map (mapEntries entries)
  | other => other

def mapItems : List Wire → List Wire
  | [] => []
  | item :: rest => item.mapNumbers :: mapItems rest

def mapEntries : List (Wire × Wire) → List (Wire × Wire)
  | [] => []
  | (key, value) :: rest => (key, value.mapNumbers) :: mapEntries rest

end

theorem mapItems_eq_map (items : List Wire) : mapItems ρ items = items.map (mapNumbers ρ) := by
  induction items with
  | nil => rfl
  | cons item rest ih => rw [mapItems, ih, List.map_cons]

theorem mapEntries_eq_map (entries : List (Wire × Wire)) :
    mapEntries ρ entries = entries.map fun entry => (entry.1, entry.2.mapNumbers ρ) := by
  induction entries with
  | nil => rfl
  | cons entry rest ih => rw [mapEntries, ih, List.map_cons]

theorem mapNumbers_record (fields : List (String × Wire)) :
    (record fields).mapNumbers ρ = record (fields.map fun field => (field.1, field.2.mapNumbers ρ)) := by
  rw [record, mapNumbers, mapEntries_eq_map, record, List.map_map, List.map_map]
  rfl

theorem field?_mapEntries (name : String) (entries : List (Wire × Wire)) :
    field? name (mapEntries ρ entries) = (field? name entries).map (mapNumbers ρ) := by
  induction entries with
  | nil => rfl
  | cons entry rest ih =>
    rw [mapEntries, field?, field?, ih]
    split <;> rfl

mutual

/-- Numbers that stay as they are leave the tree as it is. -/
theorem mapNumbers_of_fixed {w : Wire} (fixed : ∀ n ∈ w.numbers, ρ n = n) : w.mapNumbers ρ = w := by
  match w with
  | .list items => exact congrArg Wire.list (mapItems_of_fixed fixed)
  | .map entries => exact congrArg Wire.map (mapEntries_of_fixed fixed)
  | .double n => exact congrArg Wire.double (fixed n (List.mem_singleton_self n))
  | .null => rfl
  | .bool _ => rfl
  | .int _ => rfl
  | .single _ => rfl
  | .text _ => rfl
  | .bytes _ => rfl

theorem mapItems_of_fixed {items : List Wire} (fixed : ∀ n ∈ itemsNumbers items, ρ n = n) :
    mapItems ρ items = items := by
  match items with
  | [] => rfl
  | item :: rest =>
    rw [itemsNumbers, List.forall_mem_append] at fixed
    rw [mapItems, mapNumbers_of_fixed fixed.1, mapItems_of_fixed fixed.2]

theorem mapEntries_of_fixed {entries : List (Wire × Wire)} (fixed : ∀ n ∈ entriesNumbers entries, ρ n = n) :
    mapEntries ρ entries = entries := by
  match entries with
  | [] => rfl
  | (key, value) :: rest =>
    rw [entriesNumbers, List.forall_mem_append] at fixed
    rw [mapEntries, mapNumbers_of_fixed fixed.1, mapEntries_of_fixed fixed.2]

end

mutual

/-- Limits that let through what `ρ` makes of the numbers they let through. -/
theorem Within.mapNumbers (kept : ∀ n, l.scalar (.double n) → l.scalar (.double (ρ n))) {w : Wire} {room : Nat}
    (within : w.Within l room) : (w.mapNumbers ρ).Within l room := by
  match w, within with
  | .list items, ⟨roomy, count, inside⟩ =>
    exact ⟨roomy, by rwa [mapItems_eq_map, List.length_map], ItemsWithin.mapItems kept inside⟩
  | .map entries, ⟨roomy, count, inside⟩ =>
    exact ⟨roomy, by rwa [mapEntries_eq_map, List.length_map], EntriesWithin.mapEntries kept inside⟩
  | .double n, scalar => exact kept n scalar
  | .null, scalar => exact scalar
  | .bool _, scalar => exact scalar
  | .int _, scalar => exact scalar
  | .single _, scalar => exact scalar
  | .text _, scalar => exact scalar
  | .bytes _, scalar => exact scalar

theorem ItemsWithin.mapItems (kept : ∀ n, l.scalar (.double n) → l.scalar (.double (ρ n))) {items : List Wire}
    {room : Nat} (within : ItemsWithin l room items) : ItemsWithin l room (mapItems ρ items) := by
  match items, within with
  | [], _ => trivial
  | item :: rest, ⟨first, others⟩ => exact ⟨Within.mapNumbers kept first, ItemsWithin.mapItems kept others⟩

theorem EntriesWithin.mapEntries (kept : ∀ n, l.scalar (.double n) → l.scalar (.double (ρ n)))
    {entries : List (Wire × Wire)} {room : Nat} (within : EntriesWithin l room entries) :
    EntriesWithin l room (mapEntries ρ entries) := by
  match entries, within with
  | [], _ => trivial
  | (key, value) :: rest, ⟨⟨named, ofKey, ofValue⟩, others⟩ =>
    exact ⟨⟨named, ofKey, Within.mapNumbers kept ofValue⟩, EntriesWithin.mapEntries kept others⟩

end

end Wire

namespace Value

mutual

def mapNumbers : Value → Value
  | .number n => .number (ρ n)
  | .list items => .list (mapItems items)
  | .map entries => .map (mapEntries entries)
  | other => other

def mapItems : List Value → List Value
  | [] => []
  | item :: rest => item.mapNumbers :: mapItems rest

def mapEntries : List (String × Value) → List (String × Value)
  | [] => []
  | (key, value) :: rest => (key, value.mapNumbers) :: mapEntries rest

end

theorem mapEntries_eq_map (entries : List (String × Value)) :
    mapEntries ρ entries = entries.map fun entry => (entry.1, entry.2.mapNumbers ρ) := by
  induction entries with
  | nil => rfl
  | cons entry rest ih => rw [mapEntries, ih, List.map_cons]

/-- The keys stay as they are. -/
theorem sorted_mapEntries {entries : List (String × Value)} (sorted : Entries.Sorted entries) :
    Entries.Sorted (mapEntries ρ entries) := by
  rw [mapEntries_eq_map]
  exact List.pairwise_map.mpr sorted

mutual

theorem toWire_mapNumbers (v : Value) : (v.mapNumbers ρ).toWire = v.toWire.mapNumbers ρ := by
  match v with
  | .list items => rw [mapNumbers, toWire, itemsToWire_mapItems, toWire, Wire.mapNumbers]
  | .map entries => rw [mapNumbers, toWire, entriesToWire_mapEntries, toWire, Wire.mapNumbers]
  | .none => rfl
  | .text _ => rfl
  | .number _ => rfl
  | .bool _ => rfl
  | .binary _ => rfl

theorem itemsToWire_mapItems (items : List Value) :
    itemsToWire (mapItems ρ items) = Wire.mapItems ρ (itemsToWire items) := by
  match items with
  | [] => rfl
  | item :: rest =>
    rw [mapItems, itemsToWire, toWire_mapNumbers item, itemsToWire_mapItems rest, itemsToWire, Wire.mapItems]

theorem entriesToWire_mapEntries (entries : List (String × Value)) :
    entriesToWire (mapEntries ρ entries) = Wire.mapEntries ρ (entriesToWire entries) := by
  match entries with
  | [] => rfl
  | (key, value) :: rest =>
    rw [mapEntries, entriesToWire, toWire_mapNumbers value, entriesToWire_mapEntries rest, entriesToWire,
      Wire.mapEntries]

end

mutual

theorem WellFormed.mapNumbers {v : Value} (formed : v.WellFormed) : (v.mapNumbers ρ).WellFormed := by
  match v, formed with
  | .list items, formed => exact AllWellFormed.mapItems (show AllWellFormed items from formed)
  | .map entries, ⟨sorted, formed⟩ => exact ⟨sorted_mapEntries ρ sorted, EntriesWellFormed.mapEntries formed⟩
  | .none, _ => trivial
  | .text _, _ => trivial
  | .number _, _ => trivial
  | .bool _, _ => trivial
  | .binary _, _ => trivial

theorem AllWellFormed.mapItems {items : List Value} (formed : AllWellFormed items) :
    AllWellFormed (mapItems ρ items) := by
  match items, formed with
  | [], _ => trivial
  | item :: rest, ⟨first, others⟩ => exact ⟨WellFormed.mapNumbers first, AllWellFormed.mapItems others⟩

theorem EntriesWellFormed.mapEntries {entries : List (String × Value)} (formed : EntriesWellFormed entries) :
    EntriesWellFormed (mapEntries ρ entries) := by
  match entries, formed with
  | [], _ => trivial
  | (key, value) :: rest, ⟨first, others⟩ =>
    exact ⟨WellFormed.mapNumbers first, EntriesWellFormed.mapEntries others⟩

end

end Value

namespace Operand

def mapNumbers : Operand → Operand
  | .literal value => .literal (value.mapNumbers ρ)
  | other => other

theorem toWire_mapNumbers (o : Operand) : (o.mapNumbers ρ).toWire = o.toWire.mapNumbers ρ := by
  cases o with
  | bind name => rfl
  | field path => rfl
  | literal value =>
    rw [mapNumbers, toWire, Value.toWire_mapNumbers, toWire, Wire.mapNumbers_record]
    rfl

theorem WellFormed.mapNumbers {o : Operand} (formed : o.WellFormed) : (o.mapNumbers ρ).WellFormed := by
  cases o with
  | bind name => trivial
  | field path => trivial
  | literal value => exact Value.WellFormed.mapNumbers ρ formed

end Operand

def Comparison.mapNumbers (c : Comparison) : Comparison := { c with operand := c.operand.mapNumbers ρ }

namespace Predicate

mutual

def mapNumbers : Predicate → Predicate
  | .and children => .and (mapChildren children)
  | .or children => .or (mapChildren children)
  | .not child => .not child.mapNumbers
  | .compare c => .compare (c.mapNumbers ρ)
  | .unknown kind raw => .unknown kind (raw.mapNumbers ρ)

def mapChildren : List Predicate → List Predicate
  | [] => []
  | child :: rest => child.mapNumbers :: mapChildren rest

end

theorem length_mapChildren (children : List Predicate) : (mapChildren ρ children).length = children.length := by
  induction children with
  | nil => rfl
  | cons child rest ih => rw [mapChildren, List.length_cons, ih, List.length_cons]

theorem mapChildren_append (first second : List Predicate) :
    mapChildren ρ (first ++ second) = mapChildren ρ first ++ mapChildren ρ second := by
  induction first with
  | nil => rfl
  | cons child rest ih => rw [List.cons_append, mapChildren, ih, mapChildren, List.cons_append]

theorem collapse_mapChildren {wrap : List Predicate → Predicate} (children : List Predicate)
    (wraps : (wrap children).mapNumbers ρ = wrap (mapChildren ρ children)) :
    collapse wrap (mapChildren ρ children) = (collapse wrap children).map (mapNumbers ρ) := by
  match children, wraps with
  | [], _ => rfl
  | [_], _ => rfl
  | _ :: _ :: _, wraps => exact congrArg some wraps.symm

mutual

theorem normalized?_mapNumbers (p : Predicate) :
    (p.mapNumbers ρ).normalized? = p.normalized?.map (mapNumbers ρ) := by
  match p with
  | .and children =>
    rw [mapNumbers, normalized?, normalizedAll_mapChildren children]
    exact collapse_mapChildren ρ _ rfl
  | .or children =>
    rw [mapNumbers, normalized?, normalizedAll_mapChildren children]
    exact collapse_mapChildren ρ _ rfl
  | .not child =>
    rw [mapNumbers, normalized?, normalized?_mapNumbers child, normalized?, Option.map_map, Option.map_map]
    rfl
  | .compare _ => rfl
  | .unknown _ _ => rfl

theorem normalizedAll_mapChildren (children : List Predicate) :
    normalizedAll (mapChildren ρ children) = mapChildren ρ (normalizedAll children) := by
  match children with
  | [] => rfl
  | child :: rest =>
    rw [mapChildren, normalizedAll, normalizedAll, mapChildren_append, normalized?_mapNumbers child,
      normalizedAll_mapChildren rest]
    cases child.normalized? <;> rfl

end

mutual

theorem toWire_mapNumbers (p : Predicate) : (p.mapNumbers ρ).toWire = p.toWire.mapNumbers ρ := by
  match p with
  | .and children =>
    rw [mapNumbers, toWire, childrenToWire_mapChildren children, toWire, Wire.mapNumbers_record]
    rfl
  | .or children =>
    rw [mapNumbers, toWire, childrenToWire_mapChildren children, toWire, Wire.mapNumbers_record]
    rfl
  | .not child =>
    rw [mapNumbers, toWire, toWire_mapNumbers child, toWire, Wire.mapNumbers_record]
    rfl
  | .compare c =>
    rw [mapNumbers, toWire, Comparison.fields, Comparison.mapNumbers, Operand.toWire_mapNumbers, toWire,
      Wire.mapNumbers_record]
    rfl
  | .unknown kind raw => rfl

theorem childrenToWire_mapChildren (children : List Predicate) :
    childrenToWire (mapChildren ρ children) = Wire.mapItems ρ (childrenToWire children) := by
  match children with
  | [] => rfl
  | child :: rest =>
    rw [mapChildren, childrenToWire, toWire_mapNumbers child, childrenToWire_mapChildren rest, childrenToWire,
      Wire.mapItems]

end

mutual

theorem Collapsed.mapNumbers {p : Predicate} (collapsed : p.Collapsed) : (p.mapNumbers ρ).Collapsed := by
  match p, collapsed with
  | .and children, ⟨two, all⟩ => exact ⟨by rwa [length_mapChildren], AllCollapsed.mapChildren all⟩
  | .or children, ⟨two, all⟩ => exact ⟨by rwa [length_mapChildren], AllCollapsed.mapChildren all⟩
  | .not child, inner => exact Collapsed.mapNumbers (p := child) inner
  | .compare _, _ => trivial
  | .unknown _ _, _ => trivial

theorem AllCollapsed.mapChildren {children : List Predicate} (all : AllCollapsed children) :
    AllCollapsed (mapChildren ρ children) := by
  match children, all with
  | [], _ => trivial
  | child :: rest, ⟨first, others⟩ => exact ⟨Collapsed.mapNumbers first, AllCollapsed.mapChildren others⟩

end

mutual

theorem Sendable.mapNumbers {p : Predicate} (sendable : p.Sendable) : (p.mapNumbers ρ).Sendable := by
  match p, sendable with
  | .and children, all => exact AllSendable.mapChildren (show AllSendable children from all)
  | .or children, all => exact AllSendable.mapChildren (show AllSendable children from all)
  | .not child, inner => exact Sendable.mapNumbers (p := child) inner
  | .compare _, formed => exact Operand.WellFormed.mapNumbers ρ formed
  | .unknown kind _, ⟨entries, whole, tagged, other⟩ =>
    subst whole
    exact ⟨_, rfl, by rw [Wire.field?_mapEntries, tagged]; rfl, other⟩

theorem AllSendable.mapChildren {children : List Predicate} (all : AllSendable children) :
    AllSendable (mapChildren ρ children) := by
  match children, all with
  | [], _ => trivial
  | child :: rest, ⟨first, others⟩ => exact ⟨Sendable.mapNumbers first, AllSendable.mapChildren others⟩

end

end Predicate

theorem map_optionalField (name : String) (value : Option Wire) :
    ((optionalField name value).map fun field => (field.1, field.2.mapNumbers ρ)) =
      optionalField name (value.map (Wire.mapNumbers ρ)) := by
  cases value <;> rfl

namespace Filter

/-- The filter with another number in the place of each. -/
def mapNumbers (f : Filter) : Filter :=
  ⟨f.predicate.map (Predicate.mapNumbers ρ),
    ⟨Value.mapEntries ρ f.params.entries, Value.sorted_mapEntries ρ f.params.sorted⟩⟩

theorem toWire_mapNumbers (f : Filter) : (f.mapNumbers ρ).toWire = f.toWire.mapNumbers ρ := by
  obtain ⟨predicate, ⟨entries, sorted⟩⟩ := f
  rw [toWire, toWire, Wire.mapNumbers_record, List.map_append, map_optionalField, map_optionalField]
  congr 2
  · cases predicate with
    | none => rfl
    | some p => exact congrArg (fun w => optionalField "predicate" (some w)) (p.toWire_mapNumbers ρ)
  · cases entries with
    | nil => rfl
    | cons entry rest =>
      exact congrArg (fun entries => optionalField "params" (some (.map entries)))
        (Value.entriesToWire_mapEntries ρ (entry :: rest))

theorem normalized_mapNumbers (f : Filter) : (f.mapNumbers ρ).normalized = f.normalized.mapNumbers ρ := by
  obtain ⟨predicate, params⟩ := f
  cases predicate with
  | none => rfl
  | some p => exact congrArg (fun p => Filter.mk p _) (p.normalized?_mapNumbers ρ)

theorem Canonical.mapNumbers {f : Filter} (canonical : f.Canonical) : (f.mapNumbers ρ).Canonical := by
  intro p member
  obtain ⟨q, standing, rfl⟩ := Option.map_eq_some_iff.mp member
  exact (canonical q standing).mapNumbers ρ

theorem Sendable.mapNumbers {f : Filter} (sendable : f.Sendable) : (f.mapNumbers ρ).Sendable := by
  refine ⟨fun p member => ?_, sendable.params.mapEntries ρ⟩
  obtain ⟨q, standing, rfl⟩ := Option.map_eq_some_iff.mp member
  exact (sendable.predicate q standing).mapNumbers ρ

theorem Kept.mapNumbers (kept : ∀ n, l.scalar (.double n) → l.scalar (.double (ρ n))) {f : Filter}
    (keeps : f.Kept l room) : (f.mapNumbers ρ).Kept l room := by
  refine ⟨keeps.canonical.mapNumbers ρ, keeps.sendable.mapNumbers ρ, ?_⟩
  rw [toWire_mapNumbers]
  exact keeps.within.mapNumbers ρ kept

end Filter

theorem SortKey.mapNumbers_toWire (key : SortKey) : key.toWire.mapNumbers ρ = key.toWire := by
  cases key.direction <;> rfl

theorem Cursor.mapNumbers_toWire (c : Cursor) : c.toWire.mapNumbers ρ = c.toWire := by
  cases c <;> rfl

namespace Request

/-- The request with another number in the place of each. -/
def mapNumbers (r : Request) : Request := { r with filter := r.filter.map (Filter.mapNumbers ρ) }

theorem normalized_mapNumbers (r : Request) : (r.mapNumbers ρ).normalized = r.normalized.mapNumbers ρ := by
  obtain ⟨filter, sort, limit, cursor⟩ := r
  cases filter with
  | none => rfl
  | some f => exact congrArg (fun f => Request.mk (some f) sort limit cursor) (f.normalized_mapNumbers ρ)

theorem Sendable.mapNumbers {r : Request} (sendable : r.Sendable) : (r.mapNumbers ρ).Sendable := by
  intro f member
  obtain ⟨g, standing, rfl⟩ := Option.map_eq_some_iff.mp member
  exact Filter.Sendable.mapNumbers ρ (sendable g standing)

theorem toWire_mapNumbers (r : Request) : (r.mapNumbers ρ).toWire = r.toWire.mapNumbers ρ := by
  obtain ⟨filter, sort, limit, cursor⟩ := r
  have filters : (filter.map Filter.toWire).map (Wire.mapNumbers ρ) =
      (filter.map (Filter.mapNumbers ρ)).map Filter.toWire := by
    cases filter with
    | none => rfl
    | some f => exact congrArg some (f.toWire_mapNumbers ρ).symm
  have keys : Wire.mapItems ρ (sort.map SortKey.toWire) = sort.map SortKey.toWire := by
    rw [Wire.mapItems_eq_map, List.map_map]
    exact List.map_congr_left fun key _ => key.mapNumbers_toWire ρ
  have sorts : (if sort.isEmpty then none else some (.list (sort.map SortKey.toWire))).map (Wire.mapNumbers ρ) =
      if sort.isEmpty then none else some (.list (sort.map SortKey.toWire)) := by
    split
    · rfl
    · rw [Option.map_some, Wire.mapNumbers, keys]
  have limits : (limit.map fun n => Wire.int n.toNat).map (Wire.mapNumbers ρ) = limit.map fun n => .int n.toNat := by
    cases limit <;> rfl
  have cursors : (cursor.map Cursor.toWire).map (Wire.mapNumbers ρ) = cursor.map Cursor.toWire := by
    cases cursor with
    | none => rfl
    | some c => exact congrArg some (c.mapNumbers_toWire ρ)
  rw [toWire, toWire, Wire.mapNumbers_record]
  simp only [List.map_append, map_optionalField, filters, sorts, limits, cursors, mapNumbers]
  rfl

theorem Kept.mapNumbers (kept : ∀ n, l.scalar (.double n) → l.scalar (.double (ρ n))) {r : Request}
    (keeps : r.Kept l room) : (r.mapNumbers ρ).Kept l room := by
  refine ⟨fun f member => ?_, Sendable.mapNumbers ρ keeps.sendable, ?_⟩
  · obtain ⟨g, standing, rfl⟩ := Option.map_eq_some_iff.mp member
    exact (keeps.canonical g standing).mapNumbers ρ
  · rw [toWire_mapNumbers]
    exact keeps.within.mapNumbers ρ kept

end Request

def Record.mapNumbers (r : Record) : Record := { r with data := r.data.mapNumbers ρ }

theorem Record.toWire_mapNumbers (r : Record) : (r.mapNumbers ρ).toWire = r.toWire.mapNumbers ρ := by
  rw [toWire, Record.mapNumbers, Value.toWire_mapNumbers, toWire, Wire.mapNumbers_record]
  rfl

namespace Page

/-- The page with another number in the place of each. -/
def mapNumbers (p : Page) : Page := { p with records := p.records.map (Record.mapNumbers ρ) }

theorem toWire_mapNumbers (p : Page) : (p.mapNumbers ρ).toWire = p.toWire.mapNumbers ρ := by
  obtain ⟨records, next, previous⟩ := p
  have inside : Wire.mapItems ρ (records.map Record.toWire) =
      (records.map (Record.mapNumbers ρ)).map Record.toWire := by
    rw [Wire.mapItems_eq_map, List.map_map, List.map_map]
    exact List.map_congr_left fun r _ => (r.toWire_mapNumbers ρ).symm
  have tokens (token : Option String) : (token.map Wire.text).map (Wire.mapNumbers ρ) = token.map Wire.text := by
    cases token <;> rfl
  rw [toWire, toWire, Wire.mapNumbers_record]
  simp only [List.map_append, map_optionalField, tokens, List.map_cons, List.map_nil, Wire.mapNumbers, inside,
    mapNumbers]

end Page

end RunQuery
