import RunQuery.Json.Numeral

/-!
Scanning JSON text. A scan takes one value and returns the text after it; where the text does not
follow the grammar the scan breaks and takes the rest with it. Half a surrogate pair and a numeral
beyond the range of numbers are flaws: they can be passed over.
-/
namespace RunQuery.Json

def isBlank (c : Char) : Bool := c = ' ' || c = '\n' || c = '\t' || c = '\r'

def skipBlank (text : List Char) : List Char := text.dropWhile isBlank

def hexValue? (c : Char) : Option Nat :=
  if '0' ≤ c ∧ c ≤ '9' then some (c.toNat - '0'.toNat)
  else if 'a' ≤ c ∧ c ≤ 'f' then some (c.toNat - 'a'.toNat + 10)
  else if 'A' ≤ c ∧ c ≤ 'F' then some (c.toNat - 'A'.toNat + 10)
  else none

/-- The code unit of four digits. -/
def unit? (a b c d : Char) : Option Nat := do
  let a ← hexValue? a
  let b ← hexValue? b
  let c ← hexValue? c
  let d ← hexValue? d
  return 4096 * a + 256 * b + 16 * c + d

/-- What the character after a backslash stands for. -/
def shortEscape? (c : Char) : Option Char :=
  match c with
  | '"' => some '"'
  | '\\' => some '\\'
  | '/' => some '/'
  | 'b' => some '\x08'
  | 'f' => some '\x0c'
  | 'n' => some '\n'
  | 'r' => some '\r'
  | 't' => some '\t'
  | _ => none

/-- Content of a quoted text: its characters, unless it is flawed, and the text after the quote. -/
abbrev Quoted := Option (Option (List Char) × List Char)

def Quoted.push (c : Char) (found : Quoted) : Quoted :=
  found.map fun parts => (parts.1.map (c :: ·), parts.2)

def Quoted.flaw (found : Quoted) : Quoted := found.map fun parts => (none, parts.2)

/-- Scans up to the closing quote. `lead` is the first half of a surrogate pair that has just been
read, if there is one; what follows must be its other half. -/
def quotedFrom (lead : Option Nat) : List Char → Quoted
  | [] => none
  | '"' :: rest => some (if lead.isSome then none else some [], rest)
  | '\\' :: 'u' :: a :: b :: c :: d :: rest =>
    match unit? a b c d with
    | none => none
    | some unit =>
      if 0xdc00 ≤ unit ∧ unit < 0xe000 then
        match lead with
        | some high =>
          (quotedFrom none rest).push
            (Char.ofNat (0x10000 + 0x400 * (high - 0xd800) + (unit - 0xdc00)))
        | none => (quotedFrom none rest).flaw
      else
        let next :=
          if 0xd800 ≤ unit ∧ unit < 0xdc00 then quotedFrom (some unit) rest
          else (quotedFrom none rest).push (Char.ofNat unit)
        if lead.isSome then next.flaw else next
  | '\\' :: c :: rest =>
    match shortEscape? c with
    | none => none
    | some c =>
      let next := (quotedFrom none rest).push c
      if lead.isSome then next.flaw else next
  | c :: rest =>
    if c.toNat < 0x20 ∨ c = '\\' then none
    else
      let next := (quotedFrom none rest).push c
      if lead.isSome then next.flaw else next

def broken : Scan × List Char := (.broken, [])

/-- Scans what follows an opening quote. -/
def scanText (text : List Char) : Scan × List Char :=
  match quotedFrom none text with
  | none => broken
  | some (none, rest) => (.flawed, rest)
  | some (some content, rest) => (.leaf (.text (String.ofList content)), rest)

/-- Digits and what follows them; at least one digit. -/
def digits? (text : List Char) : Option (List Char × List Char) :=
  let ds := text.takeWhile Char.isDigit
  if ds.isEmpty then none else some (ds, text.dropWhile Char.isDigit)

/-- A whole part has no needless zero in front. -/
def whole? (text : List Char) : Option (List Char × List Char) :=
  (digits? text).filter fun parts => parts.1.head? ≠ some '0' || parts.1.length = 1

def fraction? : List Char → Option (Option (List Char) × List Char)
  | '.' :: rest => (digits? rest).map fun parts => (some parts.1, parts.2)
  | text => some (none, text)

def exponent? (text : List Char) : Option (Option (Bool × List Char) × List Char) :=
  match text with
  | c :: rest =>
    if c = 'e' ∨ c = 'E' then
      let signed : Bool × List Char :=
        match rest with
        | '-' :: digits => (true, digits)
        | '+' :: digits => (false, digits)
        | digits => (false, digits)
      (digits? signed.2).map fun parts => (some (signed.1, parts.1), parts.2)
    else some (none, text)
  | [] => some (none, text)

/-- A numeral and what follows it. -/
def numeral? (text : List Char) : Option (Numeral × List Char) := do
  let (negative, text) := match text with
    | '-' :: rest => (true, rest)
    | text => (false, text)
  let (whole, text) ← whole? text
  let (fraction, text) ← fraction? text
  let (exponent, text) ← exponent? text
  return (⟨negative, whole, fraction, exponent⟩, text)

def scanNumeral (text : List Char) : Scan × List Char :=
  match numeral? text with
  | none => broken
  | some (numeral, rest) =>
    match numeral.value? with
    | some value => (.leaf value, rest)
    | none => (.flawed, rest)

mutual

/-- Scans one value. Each call and the one inside it use up a character, so twice the length and one
more is `fuel` enough. -/
def scanValue : (fuel : Nat) → List Char → Scan × List Char
  | 0, _ => broken
  | fuel + 1, text =>
    match skipBlank text with
    | 'n' :: 'u' :: 'l' :: 'l' :: rest => (.leaf .null, rest)
    | 't' :: 'r' :: 'u' :: 'e' :: rest => (.leaf (.bool true), rest)
    | 'f' :: 'a' :: 'l' :: 's' :: 'e' :: rest => (.leaf (.bool false), rest)
    | '"' :: rest => scanText rest
    | '[' :: rest =>
      match skipBlank rest with
      | ']' :: rest => (.list [], rest)
      | rest =>
        let found := scanItems fuel rest
        (.list found.1, found.2)
    | '{' :: rest =>
      match skipBlank rest with
      | '}' :: rest => (.map [], rest)
      | rest =>
        let found := scanEntries fuel rest
        (.map found.1, found.2)
    | rest => scanNumeral rest
termination_by structural fuel => fuel

/-- Scans items up to the closing bracket. -/
def scanItems : (fuel : Nat) → List Char → List Scan × List Char
  | 0, _ => ([.broken], [])
  | fuel + 1, text =>
    let item := scanValue fuel text
    match skipBlank item.2 with
    | ',' :: rest =>
      let others := scanItems fuel rest
      (item.1 :: others.1, others.2)
    | ']' :: rest => ([item.1], rest)
    | _ => ([item.1, .broken], [])
termination_by structural fuel => fuel

/-- Scans entries up to the closing brace. -/
def scanEntries : (fuel : Nat) → List Char → List (Scan × Scan) × List Char
  | 0, _ => ([(.broken, .broken)], [])
  | fuel + 1, text =>
    match skipBlank text with
    | '"' :: rest =>
      let key := scanText rest
      match skipBlank key.2 with
      | ':' :: rest =>
        let value := scanValue fuel rest
        match skipBlank value.2 with
        | ',' :: rest =>
          let others := scanEntries fuel rest
          ((key.1, value.1) :: others.1, others.2)
        | '}' :: rest => ([(key.1, value.1)], rest)
        | _ => ([(key.1, value.1), (.broken, .broken)], [])
      | _ => ([(key.1, .broken)], [])
    | _ => ([(.broken, .broken)], [])
termination_by structural fuel => fuel

end

/-- A scanned text: its value, and whether only blanks follow it. -/
structure Document where
  value : Scan
  complete : Bool

def scan (text : List Char) : Document :=
  let found := scanValue (2 * text.length + 1) text
  ⟨found.1, (skipBlank found.2).isEmpty⟩

/-- Containers inside each other that a reader follows. -/
def room : Nat := 127

end RunQuery.Json
