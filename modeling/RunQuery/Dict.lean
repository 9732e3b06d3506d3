/-!
Dictionaries with text keys. The entries stand in the order of their keys, each key once, so two
dictionaries with the same answers are equal. `Entries` works on bare entry lists, for types that
nest them; `Dict` keeps the order as a proof.
-/
namespace RunQuery

namespace Entries

variable {α : Type u}

/-- Keys strictly increase. -/
def Sorted (entries : List (String × α)) : Prop := entries.Pairwise fun a b => a.1 < b.1

def get? (key : String) : List (String × α) → Option α
  | [] => none
  | entry :: rest => if entry.1 = key then some entry.2 else get? key rest

/-- Puts a value at its place, in place of the value that the key had. -/
def insert (key : String) (value : α) : List (String × α) → List (String × α)
  | [] => [(key, value)]
  | entry :: rest =>
    if key < entry.1 then (key, value) :: entry :: rest
    else if key = entry.1 then (key, value) :: rest
    else entry :: insert key value rest

def erase (key : String) (entries : List (String × α)) : List (String × α) :=
  entries.filter fun entry => entry.1 ≠ key

/-- The entries of a list of pairs; of a repeated key the last value stays. -/
def ofPairs (pairs : List (String × α)) : List (String × α) :=
  pairs.foldl (fun entries pair => insert pair.1 pair.2 entries) []

theorem lt_of_not_lt_of_ne {a b : String} (h : ¬ a < b) (ne : a ≠ b) : b < a := by
  cases Decidable.em (b < a) with
  | inl lt => exact lt
  | inr not => exact absurd (String.le_antisymm (String.not_lt.mp not) (String.not_lt.mp h)) ne

theorem mem_insert {key : String} {value : α} {entry : String × α} {entries : List (String × α)}
    (member : entry ∈ insert key value entries) : entry = (key, value) ∨ entry ∈ entries := by
  induction entries with
  | nil => simpa [insert] using member
  | cons first rest ih =>
    rw [insert] at member
    split at member
    · simpa using member
    · split at member
      · rcases List.mem_cons.mp member with rfl | member
        · exact .inl rfl
        · exact .inr (List.mem_cons_of_mem _ member)
      · rcases List.mem_cons.mp member with rfl | member
        · exact .inr (List.mem_cons_self ..)
        · exact (ih member).imp id (List.mem_cons_of_mem _)

theorem Sorted.insert {key : String} {value : α} {entries : List (String × α)}
    (sorted : Sorted entries) : Sorted (insert key value entries) := by
  induction entries with
  | nil => exact List.pairwise_singleton ..
  | cons first rest ih =>
    have ⟨least, tail⟩ := List.pairwise_cons.mp sorted
    rw [Entries.insert]
    split
    next lt =>
      refine List.pairwise_cons.mpr ⟨fun entry member => ?_, sorted⟩
      rcases List.mem_cons.mp member with rfl | member
      · exact lt
      · exact String.lt_trans lt (least entry member)
    next notLt =>
      split
      next eq => exact List.pairwise_cons.mpr ⟨fun entry member => eq ▸ least entry member, tail⟩
      next ne =>
        refine List.pairwise_cons.mpr ⟨fun entry member => ?_, ih tail⟩
        rcases mem_insert member with rfl | member
        · exact lt_of_not_lt_of_ne notLt ne
        · exact least entry member

theorem Sorted.erase {key : String} {entries : List (String × α)} (sorted : Sorted entries) :
    Sorted (erase key entries) :=
  sorted.filter _

theorem get?_insert (key other : String) (value : α) (entries : List (String × α)) :
    get? other (insert key value entries) = if key = other then some value else get? other entries := by
  induction entries with
  | nil => simp [insert, get?]
  | cons first rest ih =>
    rw [insert]
    split
    · simp [get?]
    · split
      next eq => by_cases same : key = other <;> simp_all [get?]
      next ne =>
        by_cases same : first.1 = other
        · simp_all [get?]
        · simp [get?, ih, same]

end Entries

/-- A finite map from text. -/
structure Dict (α : Type u) where
  entries : List (String × α)
  sorted : Entries.Sorted entries

namespace Dict

variable {α : Type u}

def empty : Dict α := ⟨[], List.Pairwise.nil⟩

instance : Inhabited (Dict α) := ⟨empty⟩
instance [BEq α] : BEq (Dict α) := ⟨fun d e => d.entries == e.entries⟩

def get? (d : Dict α) (key : String) : Option α := Entries.get? key d.entries

def contains (d : Dict α) (key : String) : Bool := (d.get? key).isSome

def insert (d : Dict α) (key : String) (value : α) : Dict α :=
  ⟨Entries.insert key value d.entries, d.sorted.insert⟩

def erase (d : Dict α) (key : String) : Dict α := ⟨Entries.erase key d.entries, d.sorted.erase⟩

def keys (d : Dict α) : List String := d.entries.map Prod.fst

def values (d : Dict α) : List α := d.entries.map Prod.snd

def size (d : Dict α) : Nat := d.entries.length

def isEmpty (d : Dict α) : Bool := d.entries.isEmpty

/-- The dictionary of a list of pairs; of a repeated key the last value stays. -/
def ofList (pairs : List (String × α)) : Dict α :=
  pairs.foldl (fun d pair => d.insert pair.1 pair.2) empty

/-- All entries of both; where both have a key, the second has its way. -/
def union (d e : Dict α) : Dict α :=
  e.entries.foldl (fun d pair => d.insert pair.1 pair.2) d

@[simp] theorem get?_empty (key : String) : (empty : Dict α).get? key = none := rfl

theorem get?_insert (d : Dict α) (key other : String) (value : α) :
    (d.insert key value).get? other = if key = other then some value else d.get? other :=
  Entries.get?_insert ..

end Dict

/-- Texts in order, each once. -/
def sortedTexts (texts : List String) : List String :=
  (Dict.ofList (texts.map fun text => (text, ()))).keys

end RunQuery
