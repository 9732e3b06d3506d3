import RunQuery.MsgPack.Writer

/-!
Scanning MessagePack bytes. A scan takes the first value and returns the bytes after it; where the
bytes end too early or a marker is reserved, the scan breaks and takes the rest with it. Text that is
not UTF-8 is scanned as bytes, and an extension value can only be passed over.
-/
namespace RunQuery.MsgPack

/-- What a marker announces. -/
inductive Marker where
  | scalar (value : Wire)
  | uint (width : Nat)
  | sint (width : Nat)
  | single
  | double
  | text (length : Nat)
  | textSized (width : Nat)
  | bytesSized (width : Nat)
  | list (length : Nat)
  | listSized (width : Nat)
  | map (length : Nat)
  | mapSized (width : Nat)
  | extension (length : Nat)
  | extensionSized (width : Nat)
  | reserved
deriving Inhabited

def Marker.ofByte (b : UInt8) : Marker :=
  let n := b.toNat
  if n < 0x80 then .scalar (.int n)
  else if n < 0x90 then .map (n - 0x80)
  else if n < 0xa0 then .list (n - 0x90)
  else if n < 0xc0 then .text (n - 0xa0)
  else if 0xe0 ≤ n then .scalar (.int ((n : Int) - 0x100))
  else
    match n with
    | 0xc0 => .scalar .null
    | 0xc2 => .scalar (.bool false)
    | 0xc3 => .scalar (.bool true)
    | 0xc4 => .bytesSized 1
    | 0xc5 => .bytesSized 2
    | 0xc6 => .bytesSized 4
    | 0xc7 => .extensionSized 1
    | 0xc8 => .extensionSized 2
    | 0xc9 => .extensionSized 4
    | 0xca => .single
    | 0xcb => .double
    | 0xcc => .uint 1
    | 0xcd => .uint 2
    | 0xce => .uint 4
    | 0xcf => .uint 8
    | 0xd0 => .sint 1
    | 0xd1 => .sint 2
    | 0xd2 => .sint 4
    | 0xd3 => .sint 8
    | 0xd4 => .extension 1
    | 0xd5 => .extension 2
    | 0xd6 => .extension 4
    | 0xd7 => .extension 8
    | 0xd8 => .extension 16
    | 0xd9 => .textSized 1
    | 0xda => .textSized 2
    | 0xdb => .textSized 4
    | 0xdc => .listSized 2
    | 0xdd => .listSized 4
    | 0xde => .mapSized 2
    | 0xdf => .mapSized 4
    | _ => .reserved

/-- The first `count` bytes and the others, if there are that many. -/
def takeBytes? (count : Nat) (bytes : List UInt8) : Option (List UInt8 × List UInt8) :=
  if bytes.length < count then none else some (bytes.take count, bytes.drop count)

/-- A number of `width` bytes, the greatest place first. -/
def takeNat? (width : Nat) (bytes : List UInt8) : Option (Nat × List UInt8) :=
  (takeBytes? width bytes).map fun parts => (ofBigEndian parts.1, parts.2)

/-- The signed reading of a number of `width` bytes. -/
def signed (width n : Nat) : Int := if n < twoTo (8 * width - 1) then n else (n : Int) - twoTo (8 * width)

def broken : Scan × List UInt8 := (.broken, [])

def scanText (length : Nat) (bytes : List UInt8) : Scan × List UInt8 :=
  match takeBytes? length bytes with
  | none => broken
  | some (content, rest) =>
    match Text.ofUtf8? content with
    | some s => (.leaf (.text s), rest)
    | none => (.leaf (.bytes content), rest)

def scanBytes (length : Nat) (bytes : List UInt8) : Scan × List UInt8 :=
  match takeBytes? length bytes with
  | none => broken
  | some (content, rest) => (.leaf (.bytes content), rest)

/-- An extension value is one byte of type and its content. -/
def scanExtension (length : Nat) (bytes : List UInt8) : Scan × List UInt8 :=
  match takeBytes? (length + 1) bytes with
  | none => broken
  | some (_, rest) => (.flawed, rest)

/-- Reads a length of `width` bytes and goes on with it. -/
def sized (width : Nat) (bytes : List UInt8) (next : Nat → List UInt8 → Scan × List UInt8) :
    Scan × List UInt8 :=
  match takeNat? width bytes with
  | none => broken
  | some (length, rest) => next length rest

def inList (found : List Scan × List UInt8) : Scan × List UInt8 := (.list found.1, found.2)

def inMap (found : List (Scan × Scan) × List UInt8) : Scan × List UInt8 := (.map found.1, found.2)

mutual

/-- Scans the first value. Each call and the one inside it use up a byte, so twice the number of
bytes and one more is `fuel` enough. -/
def scanValue : (fuel : Nat) → List UInt8 → Scan × List UInt8
  | 0, _ => broken
  | _, [] => broken
  | fuel + 1, byte :: bytes =>
    match Marker.ofByte byte with
    | .scalar value => (.leaf value, bytes)
    | .uint width => sized width bytes fun n rest => (.leaf (.int n), rest)
    | .sint width => sized width bytes fun n rest => (.leaf (.int (signed width n)), rest)
    | .single => sized 4 bytes fun n rest => (.leaf (.single (UInt32.ofNat n)), rest)
    | .double => sized 8 bytes fun n rest => (.leaf (.double ⟨UInt64.ofNat n⟩), rest)
    | .text length => scanText length bytes
    | .textSized width => sized width bytes scanText
    | .bytesSized width => sized width bytes scanBytes
    | .list length => inList (scanItems fuel length bytes)
    | .listSized width => sized width bytes fun length rest => inList (scanItems fuel length rest)
    | .map length => inMap (scanEntries fuel length bytes)
    | .mapSized width => sized width bytes fun length rest => inMap (scanEntries fuel length rest)
    | .extension length => scanExtension length bytes
    | .extensionSized width => sized width bytes scanExtension
    | .reserved => broken
termination_by structural fuel => fuel

def scanItems : (fuel length : Nat) → List UInt8 → List Scan × List UInt8
  | 0, _, _ => ([.broken], [])
  | _, 0, bytes => ([], bytes)
  | _, _, [] => ([.broken], [])
  | fuel + 1, length + 1, bytes =>
    let first := scanValue fuel bytes
    let others := scanItems fuel length first.2
    (first.1 :: others.1, others.2)
termination_by structural fuel => fuel

def scanEntries : (fuel length : Nat) → List UInt8 → List (Scan × Scan) × List UInt8
  | 0, _, _ => ([(.broken, .broken)], [])
  | _, 0, bytes => ([], bytes)
  | _, _, [] => ([(.broken, .broken)], [])
  | fuel + 1, length + 1, bytes =>
    let key := scanValue fuel bytes
    let value := scanValue fuel key.2
    let others := scanEntries fuel length value.2
    ((key.1, value.1) :: others.1, others.2)
termination_by structural fuel => fuel

end

/-- The first value of a byte string; what comes after it does not matter. -/
def scan (bytes : List UInt8) : Scan := (scanValue (2 * bytes.length + 1) bytes).1

/-- Containers inside each other that a reader follows. -/
def room : Nat := 1023

end RunQuery.MsgPack
