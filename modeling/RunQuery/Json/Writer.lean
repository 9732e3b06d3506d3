import RunQuery.Wire
import RunQuery.Number.Decimal

/-!
JSON text of a wire tree, compact or indented. A number that is not finite is written as null, bytes
as a list of integers, and a map key must have a text form.
-/
namespace RunQuery.Json

def hexDigits (n : Nat) : List Char := [Nat.digitChar (n / 16), Nat.digitChar (n % 16)]

/-- How a character stands in a quoted text. -/
def escaped (c : Char) : List Char :=
  if c = '"' ∨ c = '\\' then ['\\', c]
  else if c = '\x08' then ['\\', 'b']
  else if c = '\x0c' then ['\\', 'f']
  else if c = '\n' then ['\\', 'n']
  else if c = '\r' then ['\\', 'r']
  else if c = '\t' then ['\\', 't']
  else if c.toNat < 0x20 then '\\' :: 'u' :: '0' :: '0' :: hexDigits c.toNat
  else [c]

def quoted (s : String) : List Char := '"' :: s.toList.flatMap escaped ++ ['"']

def intText (i : Int) : List Char :=
  if i < 0 then '-' :: Nat.toDigits 10 i.natAbs else Nat.toDigits 10 i.natAbs

def boolText (b : Bool) : List Char := if b then "true".toList else "false".toList

def nullText : List Char := "null".toList

/-- The text of a value that holds no others. -/
def scalarText : Wire → List Char
  | .bool b => boolText b
  | .int i => intText i
  | .single word => (singleNumeral? word).getD nullText
  | .double n => n.numeral?.getD nullText
  | .text s => quoted s
  | _ => nullText

/-- The text of a map key. Lists, maps, bytes, null and numbers that are not finite have none. -/
def keyText? : Wire → Option (List Char)
  | .bool b => some ('"' :: boolText b ++ ['"'])
  | .int i => some ('"' :: intText i ++ ['"'])
  | .single word => (singleNumeral? word).map fun text => '"' :: text ++ ['"']
  | .double n => n.numeral?.map fun text => '"' :: text ++ ['"']
  | .text s => some (quoted s)
  | _ => none

/-- Where line breaks and blanks go. -/
inductive Layout where
  | compact
  | indented
deriving DecidableEq

/-- The break before an element that is `depth` containers deep. -/
def Layout.lineBreak (layout : Layout) (depth : Nat) : List Char :=
  match layout with
  | .compact => []
  | .indented => '\n' :: List.replicate (2 * depth) ' '

def Layout.afterColon : Layout → List Char
  | .compact => []
  | .indented => [' ']

/-- Elements between two marks. -/
def bracketed (layout : Layout) (depth : Nat) (opening closing : Char) (elements : List (List Char)) :
    List Char :=
  match elements with
  | [] => [opening, closing]
  | first :: others =>
    opening :: layout.lineBreak (depth + 1) ++ first ++
      others.flatMap (fun element => ',' :: layout.lineBreak (depth + 1) ++ element) ++
      layout.lineBreak depth ++ [closing]

mutual

def write? (layout : Layout) (depth : Nat) : Wire → Option (List Char)
  | .bytes b =>
    some (bracketed layout depth '[' ']' (b.map fun byte => intText byte.toNat))
  | .list items => (writeItems? layout (depth + 1) items).map (bracketed layout depth '[' ']')
  | .map entries => (writeEntries? layout (depth + 1) entries).map (bracketed layout depth '{' '}')
  | scalar => some (scalarText scalar)

def writeItems? (layout : Layout) (depth : Nat) : List Wire → Option (List (List Char))
  | [] => some []
  | item :: rest => do
    let text ← write? layout depth item
    let texts ← writeItems? layout depth rest
    return text :: texts

def writeEntries? (layout : Layout) (depth : Nat) : List (Wire × Wire) → Option (List (List Char))
  | [] => some []
  | (key, value) :: rest => do
    let key ← keyText? key
    let text ← write? layout depth value
    let texts ← writeEntries? layout depth rest
    return (key ++ ':' :: layout.afterColon ++ text) :: texts

end

/-- Compact text, if every map key has one. -/
def compact? (w : Wire) : Option String := (write? .compact 0 w).map String.ofList

/-- Text with one element a line, if every map key has one. -/
def indented? (w : Wire) : Option String := (write? .indented 0 w).map String.ofList

end RunQuery.Json
