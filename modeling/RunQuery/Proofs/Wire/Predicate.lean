import RunQuery.Proofs.Predicate.Normal
import RunQuery.Proofs.Wire.Value

/-!
Predicates read back from their wire form. Nodes of known kinds are collapsed at each level while they are
read, and a connective of which nothing is left stays until the level above drops it; so what is read is not
what was written, but has the same normal form.
-/
namespace RunQuery.Predicate

mutual

/-- The literals in a predicate are well formed, and its nodes of unknown kinds are as a reader gives them: maps
whose first entry of the name `kind` holds a text that is none of the known kinds. -/
def Sendable : Predicate → Prop
  | .and children => AllSendable children
  | .or children => AllSendable children
  | .not child => child.Sendable
  | .compare c => c.operand.WellFormed
  | .unknown kind raw => ∃ entries, raw = .map entries ∧ Wire.field? "kind" entries = some (.text kind) ∧
      kind ∉ knownKinds

def AllSendable : List Predicate → Prop
  | [] => True
  | child :: rest => child.Sendable ∧ AllSendable rest

end

/-- A connective just decoded has the normal form of the one that was written. -/
theorem decodedConnective_normalized {wrap : List Predicate → Predicate} {found children : List Predicate}
    (normal : ∀ children, (wrap children).normalized? = collapse wrap (normalizedAll children))
    (same : normalizedAll found = normalizedAll children) :
    (decodedConnective wrap found).normalized? = (wrap children).normalized? := by
  rw [decodedConnective, same, ← normal]
  cases form : (wrap children).normalized? with
  | none => rw [Option.getD_none, normal]; rfl
  | some q => exact (normalized?_collapsed _ q form).normalized?

theorem ofWire_unknown {entries : List (Wire × Wire)} {kind : String}
    (tagged : Wire.field? "kind" entries = some (.text kind)) (other : kind ∉ knownKinds) :
    ofWire (.map entries) = .ok (.unknown kind (.map entries)) := by
  have found : kindOf entries = .ok kind := by rw [kindOf, tagged]
  rw [ofWire, found]
  exact if_pos other

mutual

theorem ofWire_toWire {p : Predicate} (sendable : p.Sendable) :
    ∃ q, ofWire p.toWire = .ok q ∧ q.normalized? = p.normalized? := by
  match p, sendable with
  | .and children, sendable =>
    obtain ⟨found, read, same⟩ := ofItems_childrenToWire sendable
    refine ⟨decodedConnective .and found, ?_, decodedConnective_normalized (fun _ => rfl) same⟩
    show (do
      let children ← (do
        let children ← ofItems (childrenToWire children)
        childrenIn (some children) [])
      return decodedConnective .and children) = _
    rw [read]
    rfl
  | .or children, sendable =>
    obtain ⟨found, read, same⟩ := ofItems_childrenToWire sendable
    refine ⟨decodedConnective .or found, ?_, decodedConnective_normalized (fun _ => rfl) same⟩
    show (do
      let children ← (do
        let children ← ofItems (childrenToWire children)
        childrenIn (some children) [])
      return decodedConnective .or children) = _
    rw [read]
    rfl
  | .not child, sendable =>
    obtain ⟨found, read, same⟩ := ofWire_toWire (p := child) sendable
    refine ⟨.not (found.normalized?.getD found), ?_, ?_⟩
    · show (do
        let child ← (do
          let child ← ofWire child.toWire
          childIn (some child) [])
        return Predicate.not (child.normalized?.getD child)) = _
      rw [read]
      rfl
    · rw [normalized?, normalized?, ← same]
      cases form : found.normalized? with
      | none => rw [Option.getD_none, form]
      | some q => rw [Option.getD_some, (normalized?_collapsed _ q form).normalized?]
  | .compare c, formed =>
    refine ⟨.compare c, ?_, rfl⟩
    show (do
      let c ← Comparison.ofEntries (c.fields.map fun (field : String × Wire) => (Wire.text field.1, field.2))
      return Predicate.compare c) = _
    rw [Comparison.ofEntries_fields formed]
    rfl
  | .unknown kind raw, ⟨entries, whole, tagged, other⟩ =>
    subst whole
    exact ⟨_, ofWire_unknown tagged other, rfl⟩

theorem ofItems_childrenToWire {children : List Predicate} (sendable : AllSendable children) :
    ∃ found, ofItems (childrenToWire children) = .ok found ∧ normalizedAll found = normalizedAll children := by
  match children, sendable with
  | [], _ => exact ⟨[], rfl, rfl⟩
  | child :: rest, ⟨first, others⟩ =>
    obtain ⟨q, readChild, sameChild⟩ := ofWire_toWire first
    obtain ⟨found, readRest, sameRest⟩ := ofItems_childrenToWire others
    refine ⟨q :: found, ?_, ?_⟩
    · rw [childrenToWire, ofItems, readChild, readRest]
      rfl
    · rw [normalizedAll, normalizedAll, sameChild, sameRest]

end

theorem decode_ofWire {p : Predicate} (sendable : p.Sendable) {room : Nat} (deep : p.toWire.depth ≤ room) :
    ∃ q, decode room (Scan.ofWire p.toWire) = .ok q ∧ q.normalized? = p.normalized? := by
  obtain ⟨q, read, same⟩ := ofWire_toWire sendable
  refine ⟨q, ?_, same⟩
  rw [decode, Scan.read_ofWire deep]
  exact read

end RunQuery.Predicate
