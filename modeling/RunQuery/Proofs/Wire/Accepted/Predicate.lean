import RunQuery.Proofs.Wire.Accepted.Value
import RunQuery.Proofs.Wire.Predicate

/-!
What becomes of predicates that are accepted: they can be sent again, and their wire form has room where the input
had it. A level that collapses needs no more room than the connective it replaces.
-/
namespace RunQuery.Predicate

theorem childrenToWire_eq_map (children : List Predicate) : childrenToWire children = children.map toWire := by
  induction children with
  | nil => rfl
  | cons child rest ih => rw [childrenToWire, ih, List.map_cons]

theorem allSendable_iff {children : List Predicate} : AllSendable children ↔ ∀ child ∈ children, child.Sendable := by
  induction children with
  | nil => simp [AllSendable]
  | cons child rest ih => rw [AllSendable, ih, List.forall_mem_cons]

/-- A predicate can be sent, and its wire form is within the limits. -/
structure Kept (l : Limits) (room : Nat) (p : Predicate) : Prop where
  sendable : p.Sendable
  within : p.toWire.Within l room

/-- Children are kept, and the format can count them. -/
structure AllKept (l : Limits) (room : Nat) (children : List Predicate) : Prop where
  count : l.count children.length
  each : ∀ child ∈ children, child.Kept l room

/-- `wrap` is the connective that is written as `kind`. -/
structure Connective (kind : String) (wrap : List Predicate → Predicate) : Prop where
  short : (Text.utf8 kind).length < 16
  written : ∀ children, (wrap children).toWire =
    .record [("kind", .text kind), ("children", .list (childrenToWire children))]
  sends : ∀ children, (wrap children).Sendable ↔ AllSendable children

theorem connective_and : Connective "and" .and := ⟨by decide, fun _ => rfl, fun _ => Iff.rfl⟩

theorem connective_or : Connective "or" .or := ⟨by decide, fun _ => rfl, fun _ => Iff.rfl⟩

section Kept

variable {l : Limits} {room : Nat}

theorem Kept.mono {p : Predicate} (keeps : p.Kept l room) {more : Nat} (le : room ≤ more) : p.Kept l more :=
  ⟨keeps.sendable, keeps.within.mono le⟩

/-- A connective takes the room of a record and of a list. -/
theorem Connective.kept_iff {kind : String} {wrap : List Predicate → Predicate} (connective : Connective kind wrap)
    (kept : l.Kept) {children : List Predicate} :
    (wrap children).Kept l room ↔ ∃ less, room = less + 2 ∧ AllKept l less children := by
  constructor
  · rintro ⟨sendable, within⟩
    rw [connective.written] at within
    obtain ⟨less, rfl, fields⟩ := Wire.within_of_record within
    have ⟨roomy, count, inside⟩ := fields ("children", .list (childrenToWire children)) (by simp)
    rw [childrenToWire_eq_map, List.length_map] at count
    rw [childrenToWire_eq_map, Wire.itemsWithin_iff] at inside
    refine ⟨less - 1, by omega, count, fun child member => ⟨?_, inside _ (List.mem_map_of_mem member)⟩⟩
    exact allSendable_iff.mp ((connective.sends children).mp sendable) child member
  · rintro ⟨less, rfl, count, each⟩
    refine ⟨(connective.sends children).mpr (allSendable_iff.mpr fun child member => (each child member).sendable), ?_⟩
    rw [connective.written]
    have list : (Wire.list (childrenToWire children)).Within l (less + 1) := by
      rw [childrenToWire_eq_map]
      refine ⟨Nat.succ_pos less, by rwa [List.length_map], Wire.itemsWithin_iff.mpr fun item member => ?_⟩
      obtain ⟨child, known, rfl⟩ := List.mem_map.mp member
      exact (each child known).within
    exact Wire.pair_within kept (by decide) (Wire.short_within kept connective.short _) list

/-- A negation takes the room of a record. -/
theorem not_kept_iff (kept : l.Kept) {child : Predicate} :
    (Predicate.not child).Kept l room ↔ ∃ less, room = less + 1 ∧ child.Kept l less := by
  constructor
  · rintro ⟨sendable, within⟩
    obtain ⟨less, rfl, fields⟩ := Wire.within_of_record within
    exact ⟨less, rfl, sendable, fields ("child", child.toWire) (by simp)⟩
  · rintro ⟨less, rfl, sendable, within⟩
    exact ⟨sendable, Wire.pair_within kept (by decide) (Wire.short_within kept (by decide) _) within⟩

/-- What a level collapses to is kept where the connective itself would be. -/
theorem Connective.collapse_kept {kind : String} {wrap : List Predicate → Predicate}
    (connective : Connective kind wrap) (kept : l.Kept) {children : List Predicate} (all : AllKept l room children) :
    ∀ p ∈ collapse wrap children, p.Kept l (room + 2) := by
  match children, all with
  | [], _ => exact fun p member => nomatch member
  | [child], all =>
    rintro p ⟨⟩
    exact (all.each child (List.mem_singleton_self child)).mono (Nat.le_add_right room 2)
  | first :: second :: rest, all =>
    rintro p ⟨⟩
    exact (connective.kept_iff kept).mpr ⟨room, rfl, all⟩

theorem length_normalizedAll_le (children : List Predicate) : (normalizedAll children).length ≤ children.length := by
  induction children with
  | nil => exact Nat.le_refl _
  | cons child rest ih =>
    rw [normalizedAll, List.length_append, List.length_cons]
    have one := Option.length_toList_le (o := child.normalized?)
    omega

mutual

theorem normalized?_kept (kept : l.Kept) {p : Predicate} {room : Nat} (keeps : p.Kept l room) :
    ∀ q ∈ p.normalized?, q.Kept l room := by
  match p, keeps with
  | .and children, keeps =>
    obtain ⟨less, rfl, all⟩ := (connective_and.kept_iff kept).mp keeps
    exact connective_and.collapse_kept kept (normalizedAll_kept kept all)
  | .or children, keeps =>
    obtain ⟨less, rfl, all⟩ := (connective_or.kept_iff kept).mp keeps
    exact connective_or.collapse_kept kept (normalizedAll_kept kept all)
  | .not child, keeps =>
    obtain ⟨less, rfl, inner⟩ := (not_kept_iff kept).mp keeps
    intro q member
    obtain ⟨r, normal, rfl⟩ := Option.map_eq_some_iff.mp member
    exact (not_kept_iff kept).mpr ⟨less, rfl, normalized?_kept kept inner r normal⟩
  | .compare c, keeps =>
    rintro q ⟨⟩
    exact keeps
  | .unknown kind raw, keeps =>
    rintro q ⟨⟩
    exact keeps

theorem normalizedAll_kept (kept : l.Kept) {children : List Predicate} {room : Nat} (all : AllKept l room children) :
    AllKept l room (normalizedAll children) := by
  refine ⟨kept.fewer _ _ (length_normalizedAll_le children) all.count, ?_⟩
  match children, all.each with
  | [], _ => exact fun q member => nomatch member
  | child :: rest, each =>
    rw [List.forall_mem_cons] at each
    have rest := normalizedAll_kept kept ⟨kept.fewer rest.length _ (Nat.le_succ _) all.count, each.2⟩
    intro q member
    rcases List.mem_append.mp member with first | others
    · exact normalized?_kept kept each.1 q (Option.mem_toList.mp first)
    · exact rest.each q others

end

theorem Connective.decoded_kept {kind : String} {wrap : List Predicate → Predicate}
    (connective : Connective kind wrap) (kept : l.Kept) {children : List Predicate} (all : AllKept l room children) :
    (decodedConnective wrap children).Kept l (room + 2) := by
  have each := connective.collapse_kept kept (normalizedAll_kept kept all)
  rw [decodedConnective]
  cases form : collapse wrap (normalizedAll children) with
  | some q => exact each q form
  | none =>
    have none : AllKept l room [] :=
      ⟨kept.fewer 0 _ (Nat.zero_le _) all.count, fun _ none => (List.not_mem_nil none).elim⟩
    exact (connective.kept_iff kept).mpr ⟨room, rfl, none⟩

end Kept

section Read

variable {l : Limits}

/-- Children that came in a list, which took some of the room. -/
def FoundKept (l : Limits) (room : Nat) (children : List Predicate) : Prop :=
  ∃ less, room = less + 1 ∧ AllKept l less children

mutual

theorem ofWire_kept (kept : l.Kept) {w : Wire} {room : Nat} {p : Predicate} (within : w.Within l room)
    (read : ofWire w = .ok p) : p.Kept l room := by
  match w, within with
  | .map entries, ⟨roomy, count, inside⟩ =>
    obtain ⟨kind, tag, read⟩ := bind_eq_ok read
    obtain ⟨less, rfl⟩ := Nat.exists_eq_add_one.mpr roomy
    have connective {wrap : List Predicate → Predicate} {kind : String} (connective : Connective kind wrap)
        (read : (do return decodedConnective wrap (← childrenIn none entries)) = Except.ok p) :
        p.Kept l (less + 1) := by
      obtain ⟨children, each, done⟩ := bind_eq_ok read
      obtain ⟨fewer, rfl, all⟩ := childrenIn_kept kept inside (by rintro _ ⟨⟩) each
      cases done
      exact connective.decoded_kept kept all
    split at read
    next other =>
      cases read
      refine ⟨⟨entries, rfl, ?_, other⟩, roomy, count, inside⟩
      rw [kindOf] at tag
      split at tag
      next tagged =>
        cases tag
        exact tagged
      next => cases tag
    split at read
    · cases read
    split at read
    · exact connective connective_and read
    split at read
    · exact connective connective_or read
    split at read
    · obtain ⟨child, one, done⟩ := bind_eq_ok read
      have inner := childIn_kept kept inside (by rintro _ ⟨⟩) one
      cases done
      refine (not_kept_iff kept).mpr ⟨less, rfl, ?_⟩
      cases form : child.normalized? with
      | none => exact inner
      | some q => exact normalized?_kept kept inner q form
    · obtain ⟨c, one, done⟩ := bind_eq_ok read
      obtain ⟨formed, fields⟩ := Comparison.ofEntries_kept kept
        (Wire.entriesWithin_iff.mpr fun entry member =>
          Wire.entriesWithin_iff.mp inside entry (List.mem_filter.mp member).1) one
      cases done
      refine ⟨formed, Wire.record_within kept (Nat.le_refl 4) ?_⟩
      rw [List.forall_mem_cons]
      exact ⟨⟨by decide, Wire.short_within kept (by decide) _⟩, fields⟩

theorem childrenIn_kept (kept : l.Kept) {entries : List (Wire × Wire)} {room : Nat}
    {found : Option (List Predicate)} {children : List Predicate} (within : Wire.EntriesWithin l room entries)
    (before : ∀ children ∈ found, FoundKept l room children) (read : childrenIn found entries = .ok children) :
    FoundKept l room children := by
  match entries, within with
  | [], _ =>
    cases found with
    | none => cases read
    | some found =>
      cases read
      exact before children rfl
  | (key, value) :: rest, ⟨⟨_, _, ofValue⟩, others⟩ =>
    rw [childrenIn] at read
    split at read
    · exact childrenIn_kept kept others before read
    obtain ⟨index, _, read⟩ := bind_eq_ok read
    cases index with
    | none => exact childrenIn_kept kept others before read
    | some index =>
      dsimp only at read
      split at read
      · cases read
      obtain ⟨new, each, read⟩ := bind_eq_ok read
      refine childrenIn_kept kept others ?_ read
      rintro _ ⟨⟩
      exact ofList_kept kept ofValue each

theorem childIn_kept (kept : l.Kept) {entries : List (Wire × Wire)} {room : Nat} {found : Option Predicate}
    {child : Predicate} (within : Wire.EntriesWithin l room entries) (before : ∀ child ∈ found, child.Kept l room)
    (read : childIn found entries = .ok child) : child.Kept l room := by
  match entries, within with
  | [], _ =>
    cases found with
    | none => cases read
    | some found =>
      cases read
      exact before child rfl
  | (key, value) :: rest, ⟨⟨_, _, ofValue⟩, others⟩ =>
    rw [childIn] at read
    split at read
    · exact childIn_kept kept others before read
    obtain ⟨index, _, read⟩ := bind_eq_ok read
    cases index with
    | none => exact childIn_kept kept others before read
    | some index =>
      dsimp only at read
      split at read
      · cases read
      obtain ⟨new, one, read⟩ := bind_eq_ok read
      refine childIn_kept kept others ?_ read
      rintro _ ⟨⟩
      exact ofWire_kept kept ofValue one

theorem ofList_kept (kept : l.Kept) {w : Wire} {room : Nat} {children : List Predicate} (within : w.Within l room)
    (read : ofList w = .ok children) : FoundKept l room children := by
  match w, within with
  | .list items, ⟨roomy, count, inside⟩ =>
    obtain ⟨same, each⟩ := ofItems_kept kept inside read
    exact ⟨room - 1, by omega, same ▸ count, each⟩

theorem ofItems_kept (kept : l.Kept) {items : List Wire} {room : Nat} {children : List Predicate}
    (within : Wire.ItemsWithin l room items) (read : ofItems items = .ok children) :
    items.length = children.length ∧ ∀ child ∈ children, child.Kept l room := by
  match items, within with
  | [], _ =>
    cases read
    exact ⟨rfl, fun child member => nomatch member⟩
  | item :: rest, ⟨first, others⟩ =>
    obtain ⟨child, one, read⟩ := bind_eq_ok read
    obtain ⟨more, each, done⟩ := bind_eq_ok read
    cases done
    obtain ⟨same, all⟩ := ofItems_kept kept others each
    exact ⟨congrArg (· + 1) same, List.forall_mem_cons.mpr ⟨ofWire_kept kept first one, all⟩⟩

end

end Read

end RunQuery.Predicate
