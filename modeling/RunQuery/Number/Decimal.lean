import RunQuery.Number.Basic

/-!
Decimal text of binary words: the fewest digits that read back as the same word, of those the
nearest to it, written either in plain positional form or as a wire numeral.
-/
namespace RunQuery

/-- The decimal `coefficient * 10 ^ exponent`. -/
structure Decimal where
  coefficient : Nat
  exponent : Int
deriving DecidableEq

/-- Which of two equally near decimals is taken. -/
inductive Tie where
  | up
  | even
deriving DecidableEq

namespace Decimal

/-- `n / d / 10 ^ k` as a quotient of natural numbers. -/
def shifted (n d : Nat) (k : Int) : Nat × Nat :=
  if 0 ≤ k then (n, d * tenTo k.toNat) else (n * tenTo (-k).toNat, d)

def digits (x : Decimal) : List Char := Nat.toDigits 10 x.coefficient

/-- Drops zeros from the end of the coefficient, at most `fuel` of them. -/
def reduced : (fuel : Nat) → Decimal → Decimal
  | 0, x => x
  | fuel + 1, x =>
    if x.coefficient ≠ 0 ∧ x.coefficient % 10 = 0 then
      reduced fuel ⟨x.coefficient / 10, x.exponent + 1⟩
    else x

end Decimal

namespace FloatFormat

/-- The magnitude nearest to a decimal. Decimals far outside every range are not computed. -/
def ofDecimal (f : FloatFormat) (x : Decimal) : Nat :=
  let places := x.exponent + x.digits.length
  if x.coefficient = 0 ∨ places < -400 then 0
  else if 400 < places then f.infinity
  else
    let r := Decimal.shifted x.coefficient 1 (-x.exponent)
    f.nearest r.1 r.2

/-- A finite magnitude written out in full. -/
def exactDecimal (f : FloatFormat) (magnitude : Nat) : Decimal :=
  let s := f.significand magnitude
  let q := f.exponent magnitude
  if 0 ≤ q then ⟨s * twoTo q.toNat, 0⟩ else ⟨s * Nat.pow 5 (-q).toNat, q⟩

/-- The decimal position of the first digit of `n / d`, searched upward from `k`. -/
def leadingPlace (n d : Nat) : (fuel : Nat) → (k : Int) → Int
  | 0, k => k
  | fuel + 1, k =>
    let r := Decimal.shifted n d (k + 1)
    if r.2 ≤ r.1 then leadingPlace n d fuel (k + 1) else k

/-- Of the two neighbours of the magnitude on the grid `10 ^ k`, the nearer that reads back. -/
def onGrid (f : FloatFormat) (tie : Tie) (magnitude : Nat) (k : Int) : Option Decimal :=
  let v := f.ratio magnitude
  let r := Decimal.shifted v.1 v.2 k
  let low : Decimal := ⟨r.1 / r.2, k⟩
  let high : Decimal := ⟨r.1 / r.2 + 1, k⟩
  let rest := 2 * (r.1 % r.2)
  let lowFirst := rest < r.2 ∨ rest = r.2 ∧ tie = .even ∧ low.coefficient % 2 = 0
  let order := if lowFirst then [low, high] else [high, low]
  order.find? fun x => f.ofDecimal x == magnitude

/-- The first grid with a hit, `count` grids being tried from `10 ^ k` downward. -/
def firstGrid (f : FloatFormat) (tie : Tie) (magnitude : Nat) : (count : Nat) → (k : Int) → Decimal
  | 0, _ => f.exactDecimal magnitude
  | count + 1, k =>
    match f.onGrid tie magnitude k with
    | some x => x
    | none => firstGrid f tie magnitude count (k - 1)

/-- The shortest decimal that reads back as a finite magnitude other than zero. -/
def shortest (f : FloatFormat) (tie : Tie) (magnitude : Nat) : Decimal :=
  let v := f.ratio magnitude
  let below : Int := ((v.1.log2 : Int) - v.2.log2 - 1) * 30103 / 100000 - 1
  (f.firstGrid tie magnitude 17 (leadingPlace v.1 v.2 4 below)).reduced 20

end FloatFormat

/-- Where a wire numeral changes from positional to scientific form. -/
structure NumeralStyle where
  format : FloatFormat
  leastPlace : Int
  greatestPlace : Int

namespace NumeralStyle

def double : NumeralStyle := ⟨.binary64, -5, 15⟩
def single : NumeralStyle := ⟨.binary32, -6, 12⟩

end NumeralStyle

namespace Decimal

/-- Positional form without a needless fraction. -/
def plain (x : Decimal) : List Char :=
  let ds := x.digits
  let point := ds.length + x.exponent
  if 0 ≤ x.exponent then ds ++ List.replicate x.exponent.toNat '0'
  else if 0 < point then ds.take point.toNat ++ '.' :: ds.drop point.toNat
  else '0' :: '.' :: List.replicate (-point).toNat '0' ++ ds

/-- Positional form that always has a fraction. -/
def positional (x : Decimal) : List Char :=
  if 0 ≤ x.exponent then x.plain ++ ['.', '0'] else x.plain

/-- One digit before the point and a signed exponent. -/
def scientific (x : Decimal) : List Char :=
  let ds := x.digits
  let place := ds.length + x.exponent - 1
  let fraction := if ds.length ≤ 1 then [] else '.' :: ds.drop 1
  ds.take 1 ++ fraction ++ 'e' :: (if 0 ≤ place then '+' else '-') :: Nat.toDigits 10 place.natAbs

def numeral (style : NumeralStyle) (x : Decimal) : List Char :=
  let place := x.digits.length + x.exponent - 1
  if style.leastPlace ≤ place ∧ place ≤ style.greatestPlace then x.positional else x.scientific

end Decimal

/-- Positional text with the fewest digits that read back; of two as near the greater. -/
def FloatFormat.plain (f : FloatFormat) (negative : Bool) (magnitude : Nat) : List Char :=
  if f.infinity < magnitude then "NaN".toList
  else
    let body :=
      if magnitude = 0 then ['0']
      else if magnitude < f.infinity then (f.shortest .up magnitude).plain
      else "inf".toList
    if negative then '-' :: body else body

def Number.plain (x : Number) : List Char := FloatFormat.binary64.plain x.negative x.magnitude

/-- The same for a 32-bit word. -/
def singlePlain (word : UInt32) : List Char :=
  let sign := FloatFormat.binary32.signWeight
  FloatFormat.binary32.plain (sign ≤ word.toNat) (word.toNat % sign)

/-- The wire numeral of a word given by its sign and magnitude; there is none unless it is finite. -/
def NumeralStyle.write? (style : NumeralStyle) (negative : Bool) (magnitude : Nat) :
    Option (List Char) :=
  if magnitude < style.format.infinity then
    let body :=
      if magnitude = 0 then ['0', '.', '0']
      else (style.format.shortest .even magnitude).numeral style
    some (if negative then '-' :: body else body)
  else none

/-- The wire numeral of a number. -/
def Number.numeral? (x : Number) : Option (List Char) :=
  NumeralStyle.double.write? x.negative x.magnitude

/-- The wire numeral of a 32-bit word. -/
def singleNumeral? (word : UInt32) : Option (List Char) :=
  let sign := FloatFormat.binary32.signWeight
  NumeralStyle.single.write? (sign ≤ word.toNat) (word.toNat % sign)

end RunQuery
