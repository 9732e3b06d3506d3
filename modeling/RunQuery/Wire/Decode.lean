import RunQuery.Query
import RunQuery.Json.Scanner
import RunQuery.MsgPack.Scanner

/-!
Values, filters and messages from what a reader has scanned. Decoding goes through the input in
order and stops at the first thing it cannot accept. A predicate node is taken as a whole before its
kind is looked at, so that a node of an unknown kind is kept as it was received; nodes of known kinds
are collapsed while they are decoded.
-/
namespace RunQuery

/-- How a format writes names, and how it passes over what it does not need. -/
structure Dialect where
  /-- Bytes and positions may stand for the names of fields and of choices. -/
  indexed : Bool
  /-- What is passed over may not go deeper than what is read. -/
  boundedSkip : Bool

namespace Dialect

def skip (d : Dialect) (room : Nat) (s : Scan) : Except DecodeError Unit :=
  s.skip (if d.boundedSkip then some room else none)

end Dialect

namespace Decode

/-- Position of the field that a key names, if it names one. -/
def fieldIndex (names : List String) : Wire → Except DecodeError (Option Nat)
  | .text s => .ok (names.findIdx? (· = s))
  | .bytes b => .ok (names.findIdx? fun name => Text.utf8 name = b)
  | .int i =>
    if i < 0 then .error (.unexpected "a field name")
    else .ok (if i.toNat < names.length then some i.toNat else none)
  | _ => .error (.unexpected "a field name")

/-- Position of the choice that a tag names. -/
def choiceIndex (indexed : Bool) (names : List String) (tag : Wire) : Except DecodeError Nat := do
  let found ← match tag, indexed with
    | .text s, _ => .ok (names.findIdx? (· = s))
    | tag, true => fieldIndex names tag
    | _, false => .error (.unexpected "a name")
  match found with
  | some index => return index
  | none => .error (.unknownName "a known name")

/-- A choice without content: its name, or a map from its name to nothing. -/
def unitChoice (indexed : Bool) (names : List String) : Wire → Except DecodeError Nat
  | .map [(name, .null)] => choiceIndex indexed names name
  | .map _ => .error (.unexpected "a single name")
  | .list _ => .error (.unexpected "a name")
  | name => choiceIndex indexed names name

/-- The same inside a predicate node, where nothing may also be an empty map. -/
def bufferedChoice (names : List String) : Wire → Except DecodeError Nat
  | .text s => choiceIndex true names (.text s)
  | .map [(name, .null)] => choiceIndex true names name
  | .map [(name, .map [])] => choiceIndex true names name
  | _ => .error (.unexpected "a name")

def text : Wire → Except DecodeError String
  | .text s => .ok s
  | .bytes b =>
    match Text.ofUtf8? b with
    | some s => .ok s
    | none => .error (.unexpected "text")
  | _ => .error (.unexpected "text")

/-- A natural number below a bound. -/
def natBelow (bound : Nat) : Wire → Except DecodeError Nat
  | .int i => if 0 ≤ i ∧ i.toNat < bound then .ok i.toNat else .error (.unexpected "a small integer")
  | _ => .error (.unexpected "an integer")

/-- Nothing, or what `decode` makes of it. -/
def optional (decode : Scan → Except DecodeError α) : Scan → Except DecodeError (Option α)
  | .leaf .null => .ok none
  | s => (decode s).map some

/-- The items of a list, decoded in order one container deeper. -/
def listOf (room : Nat) (decode : Nat → Scan → Except DecodeError α) :
    Scan → Except DecodeError (List α)
  | .list items => if room = 0 then .error .tooDeep else items.mapM (decode (room - 1))
  | .broken => .error .malformed
  | _ => .error (.unexpected "a list")

section Fields

variable {σ : Type} (d : Dialect) (room : Nat) (names : List String)
  (set : Nat → Scan → σ → Except DecodeError σ)

/-- Hands every named field of a map to `set`, in the order in which they stand. -/
def fields (seen : List Nat) (draft : σ) : List (Scan × Scan) → Except DecodeError σ
  | [] => .ok draft
  | (key, value) :: rest => do
    let key ← key.read room
    match ← fieldIndex names key with
    | none =>
      d.skip room value
      fields seen draft rest
    | some index =>
      if index ∈ seen then .error (.duplicateField (names.getD index ""))
      else
        let draft ← set index value draft
        fields (index :: seen) draft rest

/-- Hands the items of a list to `set` as the fields in their order. -/
def positions (index : Nat) (draft : σ) : List Scan → Except DecodeError σ
  | [] => .ok draft
  | item :: rest =>
    if index < names.length then do
      let draft ← set index item draft
      positions (index + 1) draft rest
    else .error (.unexpected "no more fields")

end Fields

/-- A record of named fields, or a list of them in order. `set` gets the room inside. -/
def fieldsOf (d : Dialect) (room : Nat) (names : List String)
    (set : Nat → Nat → Scan → σ → Except DecodeError σ) (draft : σ) : Scan → Except DecodeError σ
  | .map entries =>
    if room = 0 then .error .tooDeep
    else fields d (room - 1) names (set (room - 1)) [] draft entries
  | .list items =>
    if room = 0 then .error .tooDeep else positions names (set (room - 1)) 0 draft items
  | .broken => .error .malformed
  | _ => .error (.unexpected "a record")

def required (name : String) : Option α → Except DecodeError α
  | some a => .ok a
  | none => .error (.missingField name)

/-- Fields of a predicate node or operand, with the positions of their names. -/
def bufferedFields (names : List String) :
    List (Wire × Wire) → Except DecodeError (List (Nat × Wire))
  | [] => .ok []
  | (key, value) :: rest => do
    let index ← fieldIndex names key
    let others ← bufferedFields names rest
    return (index.map fun i => (i, value)).toList ++ others

/-- The one value of a named field. -/
def bufferedField (names : List String) (index : Nat) (found : List (Nat × Wire)) :
    Except DecodeError Wire :=
  match found.filter fun field => field.1 = index with
  | [] => .error (.missingField (names.getD index ""))
  | [field] => .ok field.2
  | _ => .error (.duplicateField (names.getD index ""))

/-- A key that holds the tag of a node. -/
def isKindKey : Wire → Bool
  | .text s => s = "kind"
  | .bytes b => b = Text.utf8 "kind"
  | _ => false

end Decode

namespace Value

mutual

/-- Every integer and every number becomes a number; of a repeated key the last value stays. -/
def ofWire : Wire → Except DecodeError Value
  | .null => .ok .none
  | .bool b => .ok (.bool b)
  | .int i => .ok (ofInt i)
  | .single word => .ok (.number (Number.ofSingle word))
  | .double n => .ok (.number n)
  | .text s => .ok (.text s)
  | .bytes b => .ok (.binary b)
  | .list items => (ofItems items).map .list
  | .map entries => (ofEntries [] entries).map .map

def ofItems : List Wire → Except DecodeError (List Value)
  | [] => .ok []
  | item :: rest => do
    let value ← ofWire item
    let values ← ofItems rest
    return value :: values

def ofEntries (found : List (String × Value)) :
    List (Wire × Wire) → Except DecodeError (List (String × Value))
  | [] => .ok found
  | (key, value) :: rest => do
    let key ← Decode.text key
    let value ← ofWire value
    ofEntries (Entries.insert key value found) rest

end

def decode (room : Nat) (s : Scan) : Except DecodeError Value := s.read room >>= ofWire

end Value

namespace Operand

def kinds : List String := ["bindValue", "literal", "locatable"]

/-- The name of the one field that each kind has. -/
def fieldName (kind : Nat) : String := ["name", "value", "path"].getD kind ""

def ofContent (kind : Nat) (content : Wire) : Except DecodeError Operand :=
  match kind with
  | 0 => (Decode.text content).map .bind
  | 1 => (Value.ofWire content).map .literal
  | _ => (Decode.text content).map .field

/-- A tagged record, or a list of a tag and the field. -/
def ofWire (indexed : Bool) : Wire → Except DecodeError Operand
  | .map entries => do
    let tag ← match entries.filter fun entry => Decode.isKindKey entry.1 with
      | [] => .error (.missingField "kind")
      | [entry] => .ok entry.2
      | _ => .error (.duplicateField "kind")
    let kind ← Decode.choiceIndex indexed kinds tag
    let names := [fieldName kind]
    let others := entries.filter fun entry => !Decode.isKindKey entry.1
    let content ← Decode.bufferedFields names others >>= Decode.bufferedField names 0
    ofContent kind content
  | .list [tag, content] => do
    let kind ← Decode.choiceIndex indexed kinds tag
    ofContent kind content
  | _ => .error (.unexpected "an operand")

def decode (d : Dialect) (room : Nat) (s : Scan) : Except DecodeError Operand :=
  s.read room >>= ofWire d.indexed

end Operand

namespace Comparison

def fieldNames : List String := ["location", "operation", "value"]

def operationNames : List String := Operation.all.map Operation.name

def operationAt (index : Nat) : Operation := Operation.all.getD index .eq

/-- A comparison from the entries of a predicate node. -/
def ofEntries (entries : List (Wire × Wire)) : Except DecodeError Comparison := do
  let found ← Decode.bufferedFields fieldNames entries
  let location ← Decode.bufferedField fieldNames 0 found >>= Decode.text
  let operation ← Decode.bufferedField fieldNames 1 found >>= Decode.bufferedChoice operationNames
  let operand ← Decode.bufferedField fieldNames 2 found >>= Operand.ofWire true
  return ⟨location, operationAt operation, operand⟩

structure Draft where
  location : Option String
  operation : Option Operation
  operand : Option Operand

/-- A comparison that stands by itself. -/
def decode (d : Dialect) (room : Nat) (s : Scan) : Except DecodeError Comparison := do
  let draft ← Decode.fieldsOf d room fieldNames
    (fun room index s (draft : Draft) =>
      match index with
      | 0 => do
        let location ← s.read room >>= Decode.text
        return { draft with location := some location }
      | 1 => do
        let operation ← s.read room >>= Decode.unitChoice d.indexed operationNames
        return { draft with operation := some (operationAt operation) }
      | _ => do
        let operand ← Operand.decode d room s
        return { draft with operand := some operand })
    ⟨none, none, none⟩ s
  return ⟨← Decode.required "location" draft.location, ← Decode.required "operation" draft.operation,
    ← Decode.required "value" draft.operand⟩

end Comparison

namespace Predicate

def knownKinds : List String := ["and", "or", "not", "compare"]

/-- The kind of a node, which its first entry of that name holds. -/
def kindOf (entries : List (Wire × Wire)) : Except DecodeError String :=
  match Wire.field? "kind" entries with
  | some (.text kind) => .ok kind
  | _ => .error .untaggedPredicate

/-- A connective just decoded: collapsed, but kept if nothing is left of it. -/
def decodedConnective (wrap : List Predicate → Predicate) (children : List Predicate) : Predicate :=
  (collapse wrap (normalizedAll children)).getD (wrap [])

mutual

/-- A node of an unknown kind is kept as a whole. -/
def ofWire : Wire → Except DecodeError Predicate
  | .map entries => do
    let kind ← kindOf entries
    if kind ∉ knownKinds then return .unknown kind (.map entries)
    else if (entries.filter fun entry => Decode.isKindKey entry.1).length ≠ 1 then
      .error (.duplicateField "kind")
    else if kind = "and" then
      return decodedConnective .and (← childrenIn none entries)
    else if kind = "or" then
      return decodedConnective .or (← childrenIn none entries)
    else if kind = "not" then
      let child ← childIn none entries
      return .not (child.normalized?.getD child)
    else
      return .compare (← Comparison.ofEntries (entries.filter fun entry => !Decode.isKindKey entry.1))
  | _ => .error .untaggedPredicate

/-- The children among the entries of a connective. -/
def childrenIn (found : Option (List Predicate)) :
    List (Wire × Wire) → Except DecodeError (List Predicate)
  | [] => Decode.required "children" found
  | (key, value) :: rest =>
    if Decode.isKindKey key then childrenIn found rest
    else do
      match ← Decode.fieldIndex ["children"] key with
      | none => childrenIn found rest
      | some _ =>
        if found.isSome then .error (.duplicateField "children")
        else
          let children ← ofList value
          childrenIn (some children) rest

/-- The child among the entries of a negation. -/
def childIn (found : Option Predicate) : List (Wire × Wire) → Except DecodeError Predicate
  | [] => Decode.required "child" found
  | (key, value) :: rest =>
    if Decode.isKindKey key then childIn found rest
    else do
      match ← Decode.fieldIndex ["child"] key with
      | none => childIn found rest
      | some _ =>
        if found.isSome then .error (.duplicateField "child")
        else
          let child ← ofWire value
          childIn (some child) rest

def ofList : Wire → Except DecodeError (List Predicate)
  | .list items => ofItems items
  | _ => .error (.unexpected "a list")

def ofItems : List Wire → Except DecodeError (List Predicate)
  | [] => .ok []
  | item :: rest => do
    let child ← ofWire item
    let children ← ofItems rest
    return child :: children

end

def decode (room : Nat) (s : Scan) : Except DecodeError Predicate := s.read room >>= ofWire

end Predicate

namespace Filter

/-- The parameters of a filter. -/
def decodeParams (room : Nat) : Scan → Except DecodeError (Dict Value)
  | .map entries =>
    if room = 0 then .error .tooDeep
    else
      entries.foldlM
        (fun (params : Dict Value) entry => do
          let key ← entry.1.read (room - 1) >>= Decode.text
          let value ← Value.decode (room - 1) entry.2
          return params.insert key value)
        .empty
  | .broken => .error .malformed
  | _ => .error (.unexpected "a map")

/-- A filter; nothing is left of a predicate without leaves. -/
def decode (d : Dialect) (room : Nat) : Scan → Except DecodeError Filter :=
  Decode.fieldsOf d room ["predicate", "params"]
    (fun room index s (draft : Filter) =>
      match index with
      | 0 => do
        let predicate ← Decode.optional (Predicate.decode room) s
        return { draft with predicate := predicate.bind Predicate.normalized? }
      | _ => do
        let params ← decodeParams room s
        return { draft with params })
    ⟨none, .empty⟩

end Filter

def SortKey.decode (d : Dialect) (room : Nat) (s : Scan) : Except DecodeError SortKey := do
  let draft ← Decode.fieldsOf d room ["column", "direction"]
    (fun room index s (draft : Option String × Option Direction) =>
      match index with
      | 0 => do
        let column ← s.read room >>= Decode.text
        return (some column, draft.2)
      | _ => do
        let direction ← s.read room >>= Decode.unitChoice d.indexed ["asc", "desc"]
        return (draft.1, some (if direction = 0 then .ascending else .descending)))
    (none, none) s
  return ⟨← Decode.required "column" draft.1, ← Decode.required "direction" draft.2⟩

def SortSpec.decode (d : Dialect) (room : Nat) (s : Scan) : Except DecodeError SortSpec :=
  (Decode.listOf room (SortKey.decode d) s).map SortSpec.mk

def Cursor.decode (d : Dialect) (room : Nat) (s : Scan) : Except DecodeError Cursor := do
  let draft ← Decode.fieldsOf d room ["direction", "token"]
    (fun room index s (draft : Option Nat × Option String) =>
      match index with
      | 0 => do
        let direction ← s.read room >>= Decode.unitChoice d.indexed ["forward", "backward"]
        return (some direction, draft.2)
      | _ => do
        let token ← s.read room >>= Decode.text
        return (draft.1, some token))
    (none, none) s
  let direction ← Decode.required "direction" draft.1
  let token ← Decode.required "token" draft.2
  return if direction = 0 then .forward token else .backward token

def Request.decode (d : Dialect) (room : Nat) : Scan → Except DecodeError Request :=
  Decode.fieldsOf d room ["where", "sort", "limit", "cursor"]
    (fun room index s (draft : Request) =>
      match index with
      | 0 => do
        let filter ← Decode.optional (Filter.decode d room) s
        return { draft with filter }
      | 1 => do
        let sort ← Decode.listOf room (SortKey.decode d) s
        return { draft with sort }
      | 2 => do
        let limit ← Decode.optional (fun s => s.read room >>= Decode.natBelow 0x100000000) s
        return { draft with limit := limit.map UInt32.ofNat }
      | _ => do
        let cursor ← Decode.optional (Cursor.decode d room) s
        return { draft with cursor })
    ⟨none, [], none, none⟩

structure Record.Draft where
  id : Option String
  type : Option String
  version : Option UInt64
  data : Value

def Record.decode (d : Dialect) (room : Nat) (s : Scan) : Except DecodeError Record := do
  let draft ← Decode.fieldsOf d room ["id", "type", "version", "data"]
    (fun room index s (draft : Record.Draft) =>
      match index with
      | 0 => do
        let id ← s.read room >>= Decode.text
        return { draft with id := some id }
      | 1 => do
        let type ← s.read room >>= Decode.text
        return { draft with type := some type }
      | 2 => do
        let version ← s.read room >>= Decode.natBelow 0x10000000000000000
        return { draft with version := some (UInt64.ofNat version) }
      | _ => do
        let data ← Value.decode room s
        return { draft with data })
    ⟨none, none, none, .none⟩ s
  return ⟨← Decode.required "id" draft.id, ← Decode.required "type" draft.type,
    ← Decode.required "version" draft.version, draft.data⟩

def Page.decode (d : Dialect) (room : Nat) : Scan → Except DecodeError Page :=
  Decode.fieldsOf d room ["records", "next", "previous"]
    (fun room index s (draft : Page) =>
      match index with
      | 0 => do
        let records ← Decode.listOf room (Record.decode d) s
        return { draft with records }
      | 1 => do
        let next ← Decode.optional (fun s => s.read room >>= Decode.text) s
        return { draft with next }
      | _ => do
        let previous ← Decode.optional (fun s => s.read room >>= Decode.text) s
        return { draft with previous })
    .empty

/-- Messages as JSON text. -/
def Json.decode (decoder : Dialect → Nat → Scan → Except DecodeError α) (text : List Char) :
    Except DecodeError α := do
  let document := scan text
  let message ← decoder ⟨false, false⟩ room document.value
  if document.complete then return message else .error .malformed

/-- Messages as MessagePack bytes. -/
def MsgPack.decode (decoder : Dialect → Nat → Scan → Except DecodeError α) (bytes : List UInt8) :
    Except DecodeError α :=
  decoder ⟨true, true⟩ room (scan bytes)

/-- The words for an error that has some. -/
def DecodeError.message? : DecodeError → Option String
  | .untaggedPredicate => some "predicate node without a string \x60kind\x60 tag"
  | _ => none

end RunQuery
