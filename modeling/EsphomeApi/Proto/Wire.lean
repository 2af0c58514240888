/-
EsphomeApi.Proto.Wire — the wire-format primitives of `wire.hpp`: the writer
appends to a byte string, the reader consumes one.

Machine words are bit vectors; a signed integer is its bit pattern, and a
`float` or `double` the bits that `float_to_bits` and `double_to_bits` give.
Every caller of the reader returns `false` as soon as one of its functions
does, so a reader is given here by the bytes it has left, and `none` is the
latched error.
-/
import EsphomeApi.Bytes
import EsphomeApi.Library.ZigZag

namespace EsphomeApi.Proto

open Library

/-- The low 3 bits of a tag. `static_cast<WireType>` gives values outside of the
enumeration too. -/
abbrev WireType := BitVec 3

namespace WireType

def varint : WireType := 0
def fixed64 : WireType := 1
def lengthDelimited : WireType := 2
def fixed32 : WireType := 5

end WireType

/-! ## ZigZag -/

/-- `zigzag_encode32` and `zigzag_encode64`. -/
def zigzagEncode {w : Nat} (v : BitVec w) : BitVec w := ZigZag.encode v

/-- `zigzag_decode32` and `zigzag_decode64`. -/
def zigzagDecode {w : Nat} (v : BitVec w) : BitVec w := ZigZag.decode v

/-! ## `ProtoWriter` -/

/-- `static_cast<std::uint8_t>(v)`. -/
def lowByte {w : Nat} (v : BitVec w) : UInt8 := UInt8.ofBitVec (v.setWidth 8)

def writeVarintLoop : Nat → BitVec 64 → Bytes
  | 0, v => [lowByte v]
  | fuel + 1, v =>
      if 0x80#64 ≤ v then (lowByte v ||| 0x80) :: writeVarintLoop fuel (v >>> 7) else [lowByte v]

/-- `varint`. Nine continuation bytes are enough for 64 bits. -/
def writeVarint (v : BitVec 64) : Bytes := writeVarintLoop 9 v

/-- The number of a tag and its wire type, as one word. -/
def tagWord (fieldNumber : BitVec 32) (wt : WireType) : BitVec 64 :=
  (fieldNumber.setWidth 64 <<< 3) ||| wt.setWidth 64

/-- `tag`. -/
def writeTag (fieldNumber : BitVec 32) (wt : WireType) : Bytes :=
  writeVarint (tagWord fieldNumber wt)

/-- `fixed32` and `fixed64`: the bytes of a word in little-endian order. -/
def writeFixed {w : Nat} (bytes : Nat) (v : BitVec w) : Bytes :=
  (List.range bytes).map fun i => lowByte (v >>> (8 * i))

def writeFixed32 (v : BitVec 32) : Bytes := writeFixed 4 v

def writeFixed64 (v : BitVec 64) : Bytes := writeFixed 8 v

/-- A size as the writer's `varint` takes it. -/
def sizeWord (n : Nat) : BitVec 64 := BitVec.ofNat 64 n

/-- `length_delimited`. -/
def writeLengthDelimited (s : Bytes) : Bytes := writeVarint (sizeWord s.length) ++ s

def varintSizeLoop : Nat → BitVec 64 → Nat
  | 0, _ => 1
  | fuel + 1, v => if 0x80#64 ≤ v then varintSizeLoop fuel (v >>> 7) + 1 else 1

/-- `varint_size`. -/
def varintSize (v : BitVec 64) : Nat := varintSizeLoop 9 v

/-- `tag_size`. -/
def tagSize (fieldNumber : BitVec 32) : Nat := varintSize (fieldNumber.setWidth 64 <<< 3)

/-! ## `ProtoReader` -/

/-- The loop of `varint` from bit `shift` on, `result` read so far; `n` is the
number of turns left until `shift` reaches 64. -/
def readVarintLoop : Nat → Nat → BitVec 64 → Bytes → Option (BitVec 64 × Bytes)
  | 0, _, _, _ => none
  | _ + 1, _, _, [] => none
  | n + 1, shift, result, b :: bs =>
      let result := result ||| ((b &&& 0x7F).toBitVec.setWidth 64 <<< shift)
      if b &&& 0x80 = 0 then some (result, bs)
      else readVarintLoop n (shift + 7) result bs

/-- `varint`. -/
def readVarint (bs : Bytes) : Option (BitVec 64 × Bytes) := readVarintLoop 10 0 0 bs

/-- A byte at its place in a little-endian word. -/
def byteAt (w : Nat) (b : UInt8) (i : Nat) : BitVec w := b.toBitVec.setWidth w <<< (8 * i)

/-- The word of its bytes in little-endian order, from place `i` on. -/
def wordOfBytes (w : Nat) : Nat → Bytes → BitVec w
  | _, [] => 0
  | i, b :: bs => byteAt w b i ||| wordOfBytes w (i + 1) bs

/-- `fixed32` and `fixed64`. -/
def readFixed (w bytes : Nat) (bs : Bytes) : Option (BitVec w × Bytes) :=
  if bs.length < bytes then none else some (wordOfBytes w 0 (bs.take bytes), bs.drop bytes)

def readFixed32 (bs : Bytes) : Option (BitVec 32 × Bytes) := readFixed 32 4 bs

def readFixed64 (bs : Bytes) : Option (BitVec 64 × Bytes) := readFixed 64 8 bs

/-- `length_delimited` and `sub_reader`: the region of a length prefix, and
what is behind it. -/
def readLengthDelimited (bs : Bytes) : Option (Bytes × Bytes) :=
  (readVarint bs).bind fun (len, rest) =>
    if rest.length < len.toNat then none
    else some (rest.take len.toNat, rest.drop len.toNat)

/-- `skip_field`. -/
def skipField (wt : WireType) (bs : Bytes) : Option Bytes :=
  if wt = .varint then (readVarint bs).map Prod.snd
  else if wt = .fixed64 then (readFixed64 bs).map Prod.snd
  else if wt = .fixed32 then (readFixed32 bs).map Prod.snd
  else if wt = .lengthDelimited then (readLengthDelimited bs).map Prod.snd
  else none

/-- The key of a tag, before `read_tag` takes it apart. -/
structure Key where
  word : BitVec 64
  deriving DecidableEq

/-- The field number, which the source keeps in 32 bits. -/
def Key.fieldNumber (key : Key) : BitVec 32 := (key.word >>> 3).setWidth 32

/-- The field number that stands on the wire. -/
def Key.wireNumber (key : Key) : Nat := (key.word >>> 3).toNat

def Key.wireType (key : Key) : WireType := (key.word &&& 7#64).setWidth 3

/-- `read_tag`, of input that is not used up. -/
def readTag (bs : Bytes) : Option (Key × Bytes) := (readVarint bs).map fun (word, rest) => (⟨word⟩, rest)

end EsphomeApi.Proto
