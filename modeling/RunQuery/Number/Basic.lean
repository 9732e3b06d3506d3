/-!
Binary floating-point words. A `Number` is a 64-bit word; what is said of it is said of its sign and
of its magnitude, the word without the sign bit. Magnitudes are ordered like the numbers they stand
for, so comparing and rounding need no arithmetic beyond natural numbers.
-/
namespace RunQuery

/-- A power of two. -/
abbrev twoTo (n : Nat) : Nat := Nat.pow 2 n

/-- A power of ten. -/
abbrev tenTo (n : Nat) : Nat := Nat.pow 10 n

/-- Widths of the stored fraction and of the exponent of a binary word. -/
structure FloatFormat where
  fractionBits : Nat
  exponentBits : Nat
deriving DecidableEq

/-- Nearest integer to `n / d`; a tie goes to the even neighbour. -/
def roundHalfEven (n d : Nat) : Nat :=
  let q := n / d
  let r := n % d
  if 2 * r < d then q else if d < 2 * r then q + 1 else q + q % 2

namespace FloatFormat

def binary64 : FloatFormat := ⟨52, 11⟩
def binary32 : FloatFormat := ⟨23, 8⟩

/-- The magnitude whose exponent field is full and whose fraction is zero. -/
def infinity (f : FloatFormat) : Nat := (twoTo f.exponentBits - 1) * twoTo f.fractionBits

/-- The magnitude of the usual NaN. -/
def nan (f : FloatFormat) : Nat := f.infinity + twoTo (f.fractionBits - 1)

/-- What the sign bit adds to a word. -/
def signWeight (f : FloatFormat) : Nat := twoTo (f.exponentBits + f.fractionBits)

/-- The power of two that the least magnitude counts. -/
def leastExponent (f : FloatFormat) : Int := 2 - (twoTo (f.exponentBits - 1) : Nat) - f.fractionBits

/-- A finite magnitude stands for `significand * 2 ^ exponent`. -/
def significand (f : FloatFormat) (magnitude : Nat) : Nat :=
  if magnitude < twoTo f.fractionBits then magnitude
  else twoTo f.fractionBits + magnitude % twoTo f.fractionBits

def exponent (f : FloatFormat) (magnitude : Nat) : Int :=
  f.leastExponent + (magnitude / twoTo f.fractionBits - 1 : Nat)

/-- `n / d / 2 ^ q` as a quotient of natural numbers. -/
def shifted (n d : Nat) (q : Int) : Nat × Nat :=
  if 0 ≤ q then (n, d * twoTo q.toNat) else (n * twoTo (-q).toNat, d)

/-- The magnitude nearest to `n / d`, a tie going to the even one, and infinity beyond the range. -/
def nearest (f : FloatFormat) (n d : Nat) : Nat :=
  if n = 0 then 0
  else
    let guess : Int := n.log2 - d.log2 - f.fractionBits
    let trial := shifted n d guess
    let exact := if trial.1 < twoTo f.fractionBits * trial.2 then guess - 1 else guess
    let q := max exact f.leastExponent
    let final := shifted n d q
    min f.infinity
      ((q - f.leastExponent).toNat * twoTo f.fractionBits + roundHalfEven final.1 final.2)

/-- A finite magnitude as a quotient of natural numbers. -/
def ratio (f : FloatFormat) (magnitude : Nat) : Nat × Nat :=
  shifted (f.significand magnitude) 1 (-f.exponent magnitude)

/-- Product of two finite magnitudes, rounded. -/
def product (f : FloatFormat) (a b : Nat) : Nat :=
  let x := f.ratio a
  let y := f.ratio b
  f.nearest (x.1 * y.1) (x.2 * y.2)

/-- Quotient of two finite magnitudes, rounded; the divisor is not zero. -/
def quotient (f : FloatFormat) (a b : Nat) : Nat :=
  let x := f.ratio a
  let y := f.ratio b
  f.nearest (x.1 * y.2) (x.2 * y.1)

end FloatFormat

/-- A 64-bit floating-point word. -/
structure Number where
  bits : UInt64
deriving DecidableEq

namespace Number

def magnitude (x : Number) : Nat := x.bits.toNat % 0x8000000000000000

def negative (x : Number) : Bool := 0x8000000000000000 ≤ x.bits.toNat

def ofMagnitude (negative : Bool) (magnitude : Nat) : Number :=
  ⟨UInt64.ofNat (magnitude + if negative then 0x8000000000000000 else 0)⟩

def zero : Number := ⟨0⟩
def nan : Number := ofMagnitude false FloatFormat.binary64.nan
def infinity (negative : Bool) : Number := ofMagnitude negative FloatFormat.binary64.infinity

instance : Inhabited Number := ⟨zero⟩

def isNaN (x : Number) : Bool := FloatFormat.binary64.infinity < x.magnitude
def isFinite (x : Number) : Bool := x.magnitude < FloatFormat.binary64.infinity

/-- Position in the order of numbers; the two zeros share one position. -/
def position (x : Number) : Int := if x.negative then -(x.magnitude : Int) else x.magnitude

/-- A NaN is comparable with nothing. -/
def compare? (x y : Number) : Option Ordering :=
  if x.isNaN || y.isNaN then none else some (compare x.position y.position)

/-- Equality as filters see it: a NaN differs from itself and the two zeros are equal. -/
instance : BEq Number := ⟨fun x y => x.compare? y == some .eq⟩

/-- The number nearest to an integer. -/
def ofInt (i : Int) : Number :=
  ofMagnitude (i < 0) (FloatFormat.binary64.nearest i.natAbs 1)

/-- A finite number without its fraction. -/
def truncated (x : Number) : Int :=
  let r := FloatFormat.binary64.ratio x.magnitude
  let whole : Int := (r.1 / r.2 : Nat)
  if x.negative then -whole else whole

/-- The number that a 32-bit word stands for. A NaN keeps its sign and payload and becomes quiet. -/
def ofSingle (word : UInt32) : Number :=
  let f := FloatFormat.binary32
  let negative := f.signWeight ≤ word.toNat
  let m := word.toNat % f.signWeight
  if m < f.infinity then
    let r := f.ratio m
    ofMagnitude negative (FloatFormat.binary64.nearest r.1 r.2)
  else
    let payload := (m - f.infinity) * twoTo 29
    let quiet := if m = f.infinity then 0 else twoTo 51
    ofMagnitude negative (FloatFormat.binary64.infinity + quiet + payload % twoTo 51)

end Number

end RunQuery
