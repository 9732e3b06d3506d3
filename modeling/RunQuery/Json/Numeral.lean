import RunQuery.Wire
import RunQuery.Number.Reading

/-!
Values of JSON numerals. Integers that fit 64 bits stay integers. Any other numeral is scaled: its
leading digits, as many as fit 64 bits, are rounded to a number, and that is multiplied or divided by
a rounded power of ten. The result may differ from the nearest number in its last bit.
-/
namespace RunQuery.Json

/-- A numeral as it is written. -/
structure Numeral where
  negative : Bool
  whole : List Char
  fraction : Option (List Char)
  /-- Sign and digits. -/
  exponent : Option (Bool × List Char)

namespace Numeral

def wordLimit : Nat := 0x10000000000000000

/-- Takes digits while the number fits a word; returns it with the count of digits left. -/
def takeWhole (n : Nat) : List Char → Nat × Nat
  | [] => (n, 0)
  | c :: rest =>
    let next := 10 * n + (c.toNat - '0'.toNat)
    if next < wordLimit then takeWhole next rest else (n, rest.length + 1)

/-- Takes digits while the number fits a word; returns it with the count of digits taken. -/
def takeFraction (n : Nat) : List Char → Nat × Nat
  | [] => (n, 0)
  | c :: rest =>
    let next := 10 * n + (c.toNat - '0'.toNat)
    if next < wordLimit then
      let taken := takeFraction next rest
      (taken.1, taken.2 + 1)
    else (n, 0)

def powerOfTen (k : Nat) : Nat := FloatFormat.binary64.nearest (tenTo k) 1

/-- Greatest power of ten that is a number. -/
def greatestPower : Nat := 308

/-- Multiplies by a power of ten; the result must be finite. -/
def scaledUp (magnitude k : Nat) : Option Nat :=
  if greatestPower < k then if magnitude = 0 then some 0 else none
  else
    let result := FloatFormat.binary64.product magnitude (powerOfTen k)
    if result < FloatFormat.binary64.infinity then some result else none

/-- Divides by a power of ten, a large one in steps. -/
def scaledDown (magnitude : Nat) : (steps k : Nat) → Nat
  | 0, _ => 0
  | steps + 1, k =>
    if k ≤ greatestPower then FloatFormat.binary64.quotient magnitude (powerOfTen k)
    else if magnitude = 0 then 0
    else
      scaledDown (FloatFormat.binary64.quotient magnitude (powerOfTen greatestPower)) steps
        (k - greatestPower)

/-- `significand * 10 ^ exponent` in rounded steps. -/
def scaled (significand : Nat) (exponent : Int) : Option Nat :=
  let magnitude := FloatFormat.binary64.nearest significand 1
  if 0 ≤ exponent then scaledUp magnitude exponent.toNat
  else some (scaledDown magnitude 4 (-exponent).toNat)

/-- Greatest exponent that is computed with. -/
def greatestExponent : Nat := 0x7fffffff

/-- The magnitude of a numeral with a fraction, an exponent or too many digits. -/
def magnitude? (x : Numeral) : Option Nat :=
  let whole := takeWhole 0 x.whole
  let taken := takeFraction whole.1 (x.fraction.getD [])
  let shift : Int := (whole.2 : Int) - taken.2
  match x.exponent with
  | none => scaled taken.1 shift
  | some (negative, digits) =>
    let e := Digits.value digits
    if greatestExponent < e then if taken.1 = 0 ∨ negative then some 0 else none
    else scaled taken.1 (if negative then shift - e else shift + e)

/-- The value of a numeral; there is none beyond the range of numbers. -/
def value? (x : Numeral) : Option Wire :=
  let n := Digits.value x.whole
  let double := x.magnitude?.map fun m => Wire.double (Number.ofMagnitude x.negative m)
  if x.fraction.isSome || x.exponent.isSome then double
  else if x.negative then if n = 0 || 0x8000000000000000 < n then double else some (.int (-(n : Int)))
  else if n < wordLimit then some (.int n)
  else double

end Numeral

end RunQuery.Json
