import RunQuery.Proofs.Wire.Accepted.Message
import RunQuery.Proofs.Wire.Unknown

/-!
Nodes of unknown kinds in what is accepted. Whatever a predicate is made of, it holds the unknown nodes of the tree
that it came from, since collapsing moves no leaf; and so does a filter, in which the predicate may stand anywhere
among the fields.
-/
namespace RunQuery

namespace Predicate

theorem unknowns_decodedConnective {wrap : List Predicate → Predicate}
    (wraps : ∀ children, (wrap children).leaves = leavesOf children) (children : List Predicate) :
    (decodedConnective wrap children).unknowns = unknownsOf children := by
  have whole : leavesOf (collapse wrap (normalizedAll children)).toList = leavesOf children :=
    (leavesOf_collapse (wraps _)).trans (leavesOf_normalizedAll children)
  rw [unknowns, unknownsOf, ← whole, decodedConnective]
  cases collapse wrap (normalizedAll children) with
  | none => simp [wraps, leavesOf]
  | some p => simp

theorem unknowns_decodedNot (child : Predicate) :
    (Predicate.not (child.normalized?.getD child)).unknowns = child.unknowns := by
  rw [unknowns, unknowns, leaves]
  cases form : child.normalized? with
  | none => rfl
  | some p =>
    have whole := leavesOf_normalized? child
    rw [form, Option.toList_some, leavesOf_singleton] at whole
    rw [Option.getD_some, whole]

theorem names_of_fieldIndex {fields : List String} {key : Wire} {index : Option Nat}
    (found : Decode.fieldIndex fields key = .ok index) : Decode.names fields key = index.isSome := by
  rw [Decode.names, found]
  cases index <;> rfl

/-- The key of the tag is no other field. -/
theorem names_of_isKindKey {key : Wire} (tag : Decode.isKindKey key = true) :
    Decode.names ["children"] key = false ∧ Decode.names ["child"] key = false := by
  cases key with
  | text s =>
    obtain rfl : s = "kind" := of_decide_eq_true tag
    exact ⟨rfl, rfl⟩
  | bytes b =>
    obtain rfl : b = Text.utf8 "kind" := of_decide_eq_true tag
    exact ⟨by decide, by decide⟩
  | _ => cases tag

theorem unknownsUnder_nil (entries : List (Wire × Wire)) : Wire.unknownsUnder [] entries = [] := by
  have never (key : Wire) : Decode.names [] key = false := by
    cases key with
    | int i => by_cases negative : i < 0 <;> simp [Decode.names, Decode.fieldIndex, negative]
    | _ => rfl
  induction entries with
  | nil => rfl
  | cons entry rest ih => simp [Wire.unknownsUnder, never, ih]

mutual

/-- A node that is accepted holds the unknown nodes of what it came from. -/
theorem unknowns_ofWire {w : Wire} {p : Predicate} (read : ofWire w = .ok p) : p.unknowns = w.unknowns := by
  match w with
  | .map entries =>
    obtain ⟨kind, tag, read⟩ := bind_eq_ok read
    have tagged : Wire.field? "kind" entries = some (.text kind) := by
      rw [kindOf] at tag
      split at tag
      next tagged =>
        cases tag
        exact tagged
      next => cases tag
    rw [Wire.unknowns, tagged]
    dsimp only
    split at read
    next other =>
      cases read
      rw [if_neg other]
      rfl
    next known =>
      rw [if_pos (Decidable.not_not.mp known)]
      split at read
      · cases read
      split at read
      next same =>
        subst same
        obtain ⟨children, each, done⟩ := bind_eq_ok read
        cases done
        rw [unknowns_decodedConnective (fun _ => rfl), unknowns_childrenIn each]
        rfl
      split at read
      next same =>
        subst same
        obtain ⟨children, each, done⟩ := bind_eq_ok read
        cases done
        rw [unknowns_decodedConnective (fun _ => rfl), unknowns_childrenIn each]
        rfl
      split at read
      next same =>
        subst same
        obtain ⟨child, one, done⟩ := bind_eq_ok read
        cases done
        rw [unknowns_decodedNot, unknowns_childIn one]
        rfl
      next notAnd notOr notNot =>
        obtain ⟨c, one, done⟩ := bind_eq_ok read
        cases done
        have closed : opened kind = [] := by simp [opened, notAnd, notOr, notNot]
        rw [closed, unknownsUnder_nil]
        rfl
  | .null | .bool _ | .int _ | .single _ | .double _ | .text _ | .bytes _ | .list _ => cases read

theorem unknowns_childrenIn {entries : List (Wire × Wire)} {found : Option (List Predicate)}
    {children : List Predicate} (read : childrenIn found entries = .ok children) :
    unknownsOf children = found.elim [] unknownsOf ++ Wire.unknownsUnder ["children"] entries := by
  match entries with
  | [] =>
    cases found with
    | none => cases read
    | some found =>
      cases read
      exact (List.append_nil _).symm
  | (key, value) :: rest =>
    rw [childrenIn] at read
    rw [Wire.unknownsUnder]
    split at read
    next tag => rw [unknowns_childrenIn read, (names_of_isKindKey tag).1]; rfl
    obtain ⟨index, named, read⟩ := bind_eq_ok read
    rw [names_of_fieldIndex named]
    cases index with
    | none => exact unknowns_childrenIn read
    | some index =>
      dsimp only at read
      split at read
      · cases read
      next first =>
        obtain ⟨new, each, read⟩ := bind_eq_ok read
        rw [unknowns_childrenIn read, Option.not_isSome_iff_eq_none.mp first]
        simp [unknowns_ofList each]

theorem unknowns_childIn {entries : List (Wire × Wire)} {found : Option Predicate} {child : Predicate}
    (read : childIn found entries = .ok child) :
    child.unknowns = found.elim [] unknowns ++ Wire.unknownsUnder ["child"] entries := by
  match entries with
  | [] =>
    cases found with
    | none => cases read
    | some found =>
      cases read
      exact (List.append_nil _).symm
  | (key, value) :: rest =>
    rw [childIn] at read
    rw [Wire.unknownsUnder]
    split at read
    next tag => rw [unknowns_childIn read, (names_of_isKindKey tag).2]; rfl
    obtain ⟨index, named, read⟩ := bind_eq_ok read
    rw [names_of_fieldIndex named]
    cases index with
    | none => exact unknowns_childIn read
    | some index =>
      dsimp only at read
      split at read
      · cases read
      next first =>
        obtain ⟨new, one, read⟩ := bind_eq_ok read
        rw [unknowns_childIn read, Option.not_isSome_iff_eq_none.mp first]
        simp [unknowns_ofWire one]

theorem unknowns_ofList {w : Wire} {children : List Predicate} (read : ofList w = .ok children) :
    unknownsOf children = w.unknowns := by
  match w with
  | .list items => exact unknowns_ofItems read

theorem unknowns_ofItems {items : List Wire} {children : List Predicate} (read : ofItems items = .ok children) :
    unknownsOf children = Wire.unknownsOf items := by
  match items with
  | [] =>
    cases read
    rfl
  | item :: rest =>
    obtain ⟨child, one, read⟩ := bind_eq_ok read
    obtain ⟨more, each, done⟩ := bind_eq_ok read
    cases done
    rw [unknownsOf_cons, unknowns_ofWire one, unknowns_ofItems each]
    rfl

end

end Predicate

namespace Scan

mutual

/-- The tree that was scanned, with nothing in the places that hold no value. -/
def toWire : Scan → Wire
  | .leaf value => value
  | .list items => .list (itemsToWire items)
  | .map entries => .map (entriesToWire entries)
  | .flawed => .null
  | .broken => .null

def itemsToWire : List Scan → List Wire
  | [] => []
  | item :: rest => item.toWire :: itemsToWire rest

def entriesToWire : List (Scan × Scan) → List (Wire × Wire)
  | [] => []
  | (key, value) :: rest => (key.toWire, value.toWire) :: entriesToWire rest

end

mutual

theorem toWire_of_read {s : Scan} {room : Nat} {w : Wire} (found : s.read room = .ok w) : s.toWire = w := by
  match s with
  | .leaf value => exact Except.ok.inj found
  | .list items =>
    rw [read] at found
    split at found
    · cases found
    obtain ⟨values, inside, rfl⟩ := map_eq_ok found
    rw [toWire, itemsToWire_of_read inside]
  | .map entries =>
    rw [read] at found
    split at found
    · cases found
    obtain ⟨values, inside, rfl⟩ := map_eq_ok found
    rw [toWire, entriesToWire_of_read inside]
  | .flawed => cases found
  | .broken => cases found

theorem itemsToWire_of_read {items : List Scan} {room : Nat} {values : List Wire}
    (found : readItems room items = .ok values) : itemsToWire items = values := by
  match items with
  | [] => exact Except.ok.inj found
  | item :: rest =>
    obtain ⟨value, one, found⟩ := bind_eq_ok found
    obtain ⟨others, more, done⟩ := bind_eq_ok found
    cases done
    rw [itemsToWire, toWire_of_read one, itemsToWire_of_read more]

theorem entriesToWire_of_read {entries : List (Scan × Scan)} {room : Nat} {values : List (Wire × Wire)}
    (found : readEntries room entries = .ok values) : entriesToWire entries = values := by
  match entries with
  | [] => exact Except.ok.inj found
  | (key, value) :: rest =>
    obtain ⟨name, named, found⟩ := bind_eq_ok found
    obtain ⟨content, one, found⟩ := bind_eq_ok found
    obtain ⟨others, more, done⟩ := bind_eq_ok found
    cases done
    rw [entriesToWire, toWire_of_read named, toWire_of_read one, entriesToWire_of_read more]

end

@[simp] theorem toWire_ofWire (w : Wire) : (ofWire w).toWire = w := toWire_of_read (read_ofWire (Nat.le_refl w.depth))

end Scan

namespace Filter

theorem unknowns_normalized? (found : Option Predicate) (params : Dict Value) :
    unknowns (some ⟨found.bind Predicate.normalized?, params⟩) = Predicate.unknownsOf found.toList := by
  cases found with
  | none => rfl
  | some p =>
    have whole := Predicate.leavesOf_normalized? p
    rw [unknowns, leaves, Option.bind_some, Option.bind_some, Option.toList_some, Predicate.unknownsOf,
      Predicate.leavesOf_singleton, ← whole]
    cases p.normalized? with
    | none => rfl
    | some q => simp

/-- A key that names the first of two fields names it among both. -/
theorem names_first {first second : String} {key : Wire} {index : Option Nat}
    (found : Decode.fieldIndex [first, second] key = .ok index) :
    Decode.names [first] key = decide (index = some 0) := by
  cases key with
  | text s =>
    cases found
    by_cases one : first = s
    · simp [Decode.names, Decode.fieldIndex, List.findIdx?_cons, one]
    · simp [Decode.names, Decode.fieldIndex, List.findIdx?_cons, one]
  | bytes b =>
    cases found
    by_cases one : Text.utf8 first = b
    · simp [Decode.names, Decode.fieldIndex, List.findIdx?_cons, one]
    · simp [Decode.names, Decode.fieldIndex, List.findIdx?_cons, one]
  | int i =>
    simp only [Decode.names, Decode.fieldIndex] at found ⊢
    split at found
    · cases found
    next natural =>
      cases found
      rw [if_neg natural]
      by_cases one : i.toNat = 0
      · simp [one]
      · by_cases other : i.toNat < 2
        · simp [one, other]
        · simp [one, other]
  | _ => cases found

/-- What is left of the fields of a filter: the predicate is set once, and by the field of its name. -/
theorem unknowns_fields {d : Dialect} {room : Nat} {set : Nat → Scan → Filter → Except DecodeError Filter}
    (setFirst : ∀ s draft after, set 0 s draft = .ok after → unknowns (some after) = s.toWire.unknowns)
    (setOther : ∀ index s draft after, set (index + 1) s draft = .ok after → after.predicate = draft.predicate)
    {entries : List (Scan × Scan)} {seen : List Nat} {draft f : Filter} (fresh : draft.predicate = none ∨ 0 ∈ seen)
    (read : Decode.fields d room ["predicate", "params"] set seen draft entries = .ok f) :
    unknowns (some f) =
      unknowns (some draft) ++ Wire.unknownsUnder ["predicate"] (Scan.entriesToWire entries) := by
  induction entries generalizing seen draft with
  | nil =>
    cases read
    exact (List.append_nil _).symm
  | cons entry rest ih =>
    obtain ⟨key, value⟩ := entry
    obtain ⟨name, known, read⟩ := bind_eq_ok read
    obtain ⟨index, found, read⟩ := bind_eq_ok read
    rw [Scan.entriesToWire, Wire.unknownsUnder, Scan.toWire_of_read known, names_first found]
    match index with
    | none =>
      obtain ⟨_, _, read⟩ := bind_eq_ok read
      exact ih fresh read
    | some 0 =>
      dsimp only at read
      split at read
      · cases read
      next unseen =>
        obtain ⟨next, one, read⟩ := bind_eq_ok read
        have nothing : unknowns (some draft) = [] := by
          simp [unknowns, leaves, fresh.resolve_right unseen]
        rw [ih (.inr List.mem_cons_self) read, setFirst value draft next one, nothing]
        rfl
    | some (index + 1) =>
      dsimp only at read
      split at read
      · cases read
      obtain ⟨next, one, read⟩ := bind_eq_ok read
      have same := setOther index value draft next one
      have kept : unknowns (some next) = unknowns (some draft) := by
        simp only [unknowns, leaves, Option.bind_some, same]
      rw [ih ?_ read, kept]
      · rfl
      · rw [same]
        exact fresh.imp_right (List.mem_cons_of_mem _)

theorem predicate_positions {set : Nat → Scan → Filter → Except DecodeError Filter} {names : List String}
    (setOther : ∀ index s draft after, set (index + 1) s draft = .ok after → after.predicate = draft.predicate)
    {items : List Scan} {index : Nat} {draft f : Filter}
    (read : Decode.positions names set (index + 1) draft items = .ok f) : f.predicate = draft.predicate := by
  induction items generalizing index draft with
  | nil =>
    cases read
    rfl
  | cons item rest ih =>
    rw [Decode.positions] at read
    split at read
    · obtain ⟨next, one, read⟩ := bind_eq_ok read
      rw [ih read, setOther index item draft next one]
    · cases read

theorem unknowns_optional {room : Nat} {s : Scan} {found : Option Predicate}
    (read : Decode.optional (Predicate.decode room) s = .ok found) :
    Predicate.unknownsOf found.toList = s.toWire.unknowns := by
  cases found with
  | none =>
    unfold Decode.optional at read
    split at read
    · rfl
    · obtain ⟨p, -, none⟩ := map_eq_ok read
      cases none
  | some p =>
    obtain ⟨w, scanned, one⟩ := bind_eq_ok (Decode.optional_keeps read p rfl)
    rw [Scan.toWire_of_read scanned, ← Predicate.unknowns_ofWire one]
    simp

/-- A filter that is accepted holds the unknown nodes of what it came from. -/
theorem unknowns_decode {d : Dialect} {room : Nat} {s : Scan} {f : Filter} (read : decode d room s = .ok f) :
    unknowns (some f) = s.toWire.filterUnknowns := by
  have setFirst (s : Scan) (draft after : Filter)
      (set : (do
        let predicate ← Decode.optional (Predicate.decode (room - 1)) s
        return { draft with predicate := predicate.bind Predicate.normalized? }) = Except.ok after) :
      unknowns (some after) = s.toWire.unknowns := by
    obtain ⟨found, one, done⟩ := bind_eq_ok set
    cases done
    rw [unknowns_normalized?]
    exact unknowns_optional one
  have setOther (index : Nat) (s : Scan) (draft after : Filter)
      (set : (do
        let params ← decodeParams (room - 1) s
        return { draft with params }) = Except.ok after) : after.predicate = draft.predicate := by
    obtain ⟨params, -, done⟩ := bind_eq_ok set
    cases done
    rfl
  cases s with
  | map entries =>
    rw [decode, Decode.fieldsOf] at read
    split at read
    · cases read
    exact unknowns_fields setFirst setOther (.inl rfl) read
  | list items =>
    rw [decode, Decode.fieldsOf] at read
    split at read
    · cases read
    cases items with
    | nil =>
      cases read
      rfl
    | cons first rest =>
      rw [Decode.positions, if_pos (by decide)] at read
      obtain ⟨next, one, read⟩ := bind_eq_ok read
      have same : unknowns (some f) = unknowns (some next) := by
        simp only [unknowns, leaves, Option.bind_some, predicate_positions setOther read]
      rw [same, setFirst first _ next one]
      rfl
  | leaf value => cases read
  | flawed => cases read
  | broken => cases read

end Filter

end RunQuery
