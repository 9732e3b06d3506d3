import RunQuery.Wire
import RunQuery.Text.Bytes

/-!
MessagePack bytes of a wire tree. Every header is the shortest that holds its length or its integer;
numbers keep their width.
-/
namespace RunQuery.MsgPack

/-- The low `width` bytes of a number, the greatest place first. -/
def bigEndian : (width : Nat) → Nat → List UInt8
  | 0, _ => []
  | width + 1, n => UInt8.ofNat (n / Nat.pow 256 width) :: bigEndian width n

/-- The number that bytes spell, the greatest place first. -/
def ofBigEndian (bytes : List UInt8) : Nat := bytes.foldl (fun n b => 256 * n + b.toNat) 0

def writeInt (i : Int) : List UInt8 :=
  let n := i.toNat
  if 0 ≤ i then
    if n < 0x80 then [UInt8.ofNat n]
    else if n < 0x100 then 0xcc :: bigEndian 1 n
    else if n < 0x10000 then 0xcd :: bigEndian 2 n
    else if n < 0x100000000 then 0xce :: bigEndian 4 n
    else 0xcf :: bigEndian 8 n
  else if -32 ≤ i then [UInt8.ofNat (i + 0x100).toNat]
  else if -0x80 ≤ i then 0xd0 :: bigEndian 1 (i + 0x100).toNat
  else if -0x8000 ≤ i then 0xd1 :: bigEndian 2 (i + 0x10000).toNat
  else if -0x80000000 ≤ i then 0xd2 :: bigEndian 4 (i + 0x100000000).toNat
  else 0xd3 :: bigEndian 8 (i + 0x10000000000000000).toNat

def textHeader (length : Nat) : List UInt8 :=
  if length < 32 then [UInt8.ofNat (0xa0 + length)]
  else if length < 0x100 then 0xd9 :: bigEndian 1 length
  else if length < 0x10000 then 0xda :: bigEndian 2 length
  else 0xdb :: bigEndian 4 length

def bytesHeader (length : Nat) : List UInt8 :=
  if length < 0x100 then 0xc4 :: bigEndian 1 length
  else if length < 0x10000 then 0xc5 :: bigEndian 2 length
  else 0xc6 :: bigEndian 4 length

def listHeader (length : Nat) : List UInt8 :=
  if length < 16 then [UInt8.ofNat (0x90 + length)]
  else if length < 0x10000 then 0xdc :: bigEndian 2 length
  else 0xdd :: bigEndian 4 length

def mapHeader (length : Nat) : List UInt8 :=
  if length < 16 then [UInt8.ofNat (0x80 + length)]
  else if length < 0x10000 then 0xde :: bigEndian 2 length
  else 0xdf :: bigEndian 4 length

mutual

def write : Wire → List UInt8
  | .null => [0xc0]
  | .bool b => [if b then 0xc3 else 0xc2]
  | .int i => writeInt i
  | .single word => 0xca :: bigEndian 4 word.toNat
  | .double n => 0xcb :: bigEndian 8 n.bits.toNat
  | .text s => textHeader (Text.utf8 s).length ++ Text.utf8 s
  | .bytes b => bytesHeader b.length ++ b
  | .list items => listHeader items.length ++ writeItems items
  | .map entries => mapHeader entries.length ++ writeEntries entries

def writeItems : List Wire → List UInt8
  | [] => []
  | item :: rest => write item ++ writeItems rest

def writeEntries : List (Wire × Wire) → List UInt8
  | [] => []
  | (key, value) :: rest => write key ++ write value ++ writeEntries rest

end

end RunQuery.MsgPack
