import RunQuery.Number.Decimal

/-!
Reading numerals. `Number.parse?` takes any decimal numeral and rounds once; the integer readers
take a sign and digits and refuse what lies outside their bounds.
-/
namespace RunQuery

namespace Digits

/-- The number that a list of decimal digits spells. -/
def value (ds : List Char) : Nat := ds.foldl (fun n c => 10 * n + (c.toNat - '0'.toNat)) 0

end Digits

namespace Integer

/-- Digits after an optional sign; at least one digit, and nothing else. -/
def parse? (text : List Char) : Option Int :=
  let split : Bool × List Char :=
    match text with
    | '-' :: rest => (true, rest)
    | '+' :: rest => (false, rest)
    | rest => (false, rest)
  if split.2.isEmpty || !split.2.all Char.isDigit then none
  else some (if split.1 then -(Digits.value split.2 : Int) else Digits.value split.2)

def parseWithin? (low high : Int) (text : List Char) : Option Int :=
  (parse? text).filter fun i => low ≤ i && i ≤ high

/-- A signed 64-bit integer. -/
def parseSigned? : List Char → Option Int := parseWithin? (-0x8000000000000000) 0x7fffffffffffffff

/-- An unsigned 64-bit integer; a minus sign is refused even before zero. -/
def parseUnsigned? (text : List Char) : Option Nat :=
  if text.head? = some '-' then none
  else (parseWithin? 0 0xffffffffffffffff text).map Int.toNat

end Integer

namespace Number

/-- The exponent after `e`: an optional sign and at least one digit up to the end. -/
def exponentPart? : List Char → Option Int
  | [] => some 0
  | c :: rest => if c = 'e' || c = 'E' then Integer.parse? rest else none

/-- Digits around an optional point, at least one of them, then an optional exponent. -/
def decimalPart? (text : List Char) : Option Decimal :=
  let whole := text.takeWhile Char.isDigit
  let afterWhole := text.dropWhile Char.isDigit
  let split : List Char × List Char :=
    match afterWhole with
    | '.' :: rest => (rest.takeWhile Char.isDigit, rest.dropWhile Char.isDigit)
    | rest => ([], rest)
  if whole.isEmpty && split.1.isEmpty then none
  else (exponentPart? split.2).map fun e => ⟨Digits.value (whole ++ split.1), e - split.1.length⟩

/-- Sign and magnitude of any decimal numeral, or of a word for infinity or NaN in either case, after an
optional sign. -/
def parseIn? (f : FloatFormat) (text : List Char) : Option (Bool × Nat) :=
  let split : Bool × List Char :=
    match text with
    | '-' :: rest => (true, rest)
    | '+' :: rest => (false, rest)
    | rest => (false, rest)
  let word := String.ofList (split.2.map Char.toLower)
  if word = "inf" ∨ word = "infinity" then some (split.1, f.infinity)
  else if word = "nan" then some (split.1, f.nan)
  else (decimalPart? split.2).map fun x => (split.1, f.ofDecimal x)

/-- The number nearest to a numeral. -/
def parse? (text : List Char) : Option Number :=
  (parseIn? .binary64 text).map fun parts => ofMagnitude parts.1 parts.2

/-- The 32-bit word nearest to a numeral. -/
def parseSingle? (text : List Char) : Option UInt32 :=
  (parseIn? .binary32 text).map fun parts =>
    UInt32.ofNat (parts.2 + if parts.1 then FloatFormat.binary32.signWeight else 0)

end Number

end RunQuery
