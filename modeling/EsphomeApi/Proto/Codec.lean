/-
EsphomeApi.Proto.Codec — the functions that `emit_messages.cpp` generates for
a message class: `encode`, `calculate_size` and `decode`.

The emitter writes one piece of code for each member, by its kind; here each
function is one recursion over the members of the class, and a member's case
is what the emitter writes for it.
-/
import Mathlib.Algebra.GroupWithZero.Nat
import EsphomeApi.Library.Consume
import EsphomeApi.Proto.Schema

namespace EsphomeApi.Proto

open Library

/-! ## One element -/

/-- `wire_type_token`. -/
def ScalarType.wireType : ScalarType → WireType
  | .double => .fixed64
  | .fixed64 => .fixed64
  | .sfixed64 => .fixed64
  | .float => .fixed32
  | .fixed32 => .fixed32
  | .sfixed32 => .fixed32
  | _ => .varint

/-- `write_value_stmt` with `varint_encode_expr`. -/
def writeValue : (s : ScalarType) → s.Value → Bytes
  | .double, v => writeFixed64 v
  | .float, v => writeFixed32 v
  | .int32, v => writeVarint (v.signExtend 64)
  | .int64, v => writeVarint v
  | .uint32, v => writeVarint (v.setWidth 64)
  | .uint64, v => writeVarint v
  | .sint32, v => writeVarint ((zigzagEncode v).setWidth 64)
  | .sint64, v => writeVarint (zigzagEncode v)
  | .fixed32, v => writeFixed32 v
  | .fixed64, v => writeFixed64 v
  | .sfixed32, v => writeFixed32 v
  | .sfixed64, v => writeFixed64 v
  | .bool, v => writeVarint (if v then 1 else 0)
  | .enum, v => writeVarint (v.signExtend 64)

/-- `value_size_expr`. -/
def valueSize : (s : ScalarType) → s.Value → Nat
  | .double, _ => 8
  | .float, _ => 4
  | .int32, v => varintSize (v.signExtend 64)
  | .int64, v => varintSize v
  | .uint32, v => varintSize (v.setWidth 64)
  | .uint64, v => varintSize v
  | .sint32, v => varintSize ((zigzagEncode v).setWidth 64)
  | .sint64, v => varintSize (zigzagEncode v)
  | .fixed32, _ => 4
  | .fixed64, _ => 8
  | .sfixed32, _ => 4
  | .sfixed64, _ => 8
  | .bool, v => varintSize (if v then 1 else 0)
  | .enum, v => varintSize (v.signExtend 64)

/-- `nondefault_cond`. A floating-point zero of either sign is equal to 0. -/
def nondefault : (s : ScalarType) → s.Value → Bool
  | .double, v => v != 0#64 && v != 0x8000000000000000#64
  | .float, v => v != 0#32 && v != 0x80000000#32
  | .bool, v => v
  | s, v => v != s.zero

/-- `read_info` with `decode_convert_expr`. -/
def readValue : (s : ScalarType) → Bytes → Option (s.Value × Bytes)
  | .double, bs => readFixed64 bs
  | .float, bs => readFixed32 bs
  | .int32, bs => (readVarint bs).map fun (v, rest) => (v.setWidth 32, rest)
  | .int64, bs => readVarint bs
  | .uint32, bs => (readVarint bs).map fun (v, rest) => (v.setWidth 32, rest)
  | .uint64, bs => readVarint bs
  | .sint32, bs => (readVarint bs).map fun (v, rest) => (zigzagDecode (v.setWidth 32), rest)
  | .sint64, bs => (readVarint bs).map fun (v, rest) => (zigzagDecode v, rest)
  | .fixed32, bs => readFixed32 bs
  | .fixed64, bs => readFixed64 bs
  | .sfixed32, bs => readFixed32 bs
  | .sfixed64, bs => readFixed64 bs
  | .bool, bs => (readVarint bs).map fun (v, rest) => (v != 0#64, rest)
  | .enum, bs => (readVarint bs).map fun (v, rest) => (v.setWidth 32, rest)

/-! ## `encode` -/

/-- The sum that `encode` and `calculate_size` both make for a packed field. For
elements of 4 or 8 bytes the emitter writes a product, the number of them
times that size. -/
def packedSize (s : ScalarType) (vs : List s.Value) : Nat := (vs.map (valueSize s)).sum

mutual

/-- `emit_size_field`. -/
def Field.size (number : BitVec 32) : (field : Field) → field.Value → Nat
  | .scalar s, v => if nondefault s v then tagSize number + valueSize s v else 0
  | .repeatedScalar s true, vs =>
      if List.isEmpty vs then 0
      else tagSize number + varintSize (sizeWord (packedSize s vs)) + packedSize s vs
  | .repeatedScalar s false, vs => (List.map (fun v => tagSize number + valueSize s v) vs).sum
  | .blob, v =>
      if List.isEmpty v then 0
      else tagSize number + (varintSize (sizeWord (List.length v)) + List.length v)
  | .repeatedBlob, vs =>
      (List.map (fun v : Bytes => tagSize number + varintSize (sizeWord v.length) + v.length) vs).sum
  | .message fs, v =>
      Option.elim v 0 fun v =>
        tagSize number + varintSize (sizeWord (fs.calculateSize v)) + fs.calculateSize v
  | .repeatedMessage fs, vs =>
      (List.map (fun v =>
        tagSize number + varintSize (sizeWord (fs.calculateSize v)) + fs.calculateSize v) vs).sum

/-- `calculate_size`. -/
def Fields.calculateSize : (fs : Fields) → fs.Value → Nat
  | .nil, _ => 0
  | .cons number field rest, (v, vs) => field.size (BitVec.ofNat 32 number) v + rest.calculateSize vs

end

mutual

/-- `emit_encode_field`. -/
def Field.encode (number : BitVec 32) : (field : Field) → field.Value → Bytes
  | .scalar s, v => if nondefault s v then writeTag number s.wireType ++ writeValue s v else []
  | .repeatedScalar s true, vs =>
      if List.isEmpty vs then []
      else writeTag number .lengthDelimited ++ writeVarint (sizeWord (packedSize s vs)) ++
        List.flatMap (writeValue s) vs
  | .repeatedScalar s false, vs =>
      List.flatMap (fun v => writeTag number s.wireType ++ writeValue s v) vs
  | .blob, v =>
      if List.isEmpty v then [] else writeTag number .lengthDelimited ++ writeLengthDelimited v
  | .repeatedBlob, vs =>
      List.flatMap (fun v => writeTag number .lengthDelimited ++ writeLengthDelimited v) vs
  | .message fs, v =>
      Option.elim v [] fun v =>
        writeTag number .lengthDelimited ++ writeVarint (sizeWord (fs.calculateSize v)) ++ fs.encode v
  | .repeatedMessage fs, vs =>
      List.flatMap (fun v =>
        writeTag number .lengthDelimited ++ writeVarint (sizeWord (fs.calculateSize v)) ++
          fs.encode v) vs

/-- `encode`. -/
def Fields.encode : (fs : Fields) → fs.Value → Bytes
  | .nil, _ => []
  | .cons number field rest, (v, vs) => field.encode (BitVec.ofNat 32 number) v ++ rest.encode vs

end

/-! ## `decode` -/

/-- One turn of the loop over a packed field. -/
def readElement (s : ScalarType) (bs : Bytes) (vs : List s.Value) :
    Option (Bytes × List s.Value) :=
  (readValue s bs).map fun (v, rest) => (rest, vs ++ [v])

/-- One turn of the loop of `decode`, when `record` runs the `switch`. -/
def decodeStep {σ : Type} (record : Key → Bytes → σ → Option (Bytes × σ)) (bs : Bytes) (s : σ) :
    Option (Bytes × σ) :=
  (readTag bs).bind fun (key, rest) => record key rest s

mutual

/-- `emit_decode_field`: the case of a member, from behind the tag on. -/
def Field.decode : (field : Field) → WireType → Bytes → field.Value → Option (Bytes × field.Value)
  | .scalar s, _, bs, _ => (readValue s bs).map fun (v, rest) => (rest, v)
  | .repeatedScalar s _, wt, bs, vs =>
      if wt = .lengthDelimited then
        (readLengthDelimited bs).bind fun (region, rest) =>
          (consume (readElement s) region vs).map fun vs => (rest, vs)
      else readElement s bs vs
  | .blob, _, bs, _ => (readLengthDelimited bs).map fun (v, rest) => (rest, v)
  | .repeatedBlob, _, bs, vs =>
      (readLengthDelimited bs).map fun (v, rest) => (rest, List.append vs [v])
  | .message fs, _, bs, v =>
      (readLengthDelimited bs).bind fun (region, rest) =>
        (consume (decodeStep fun key bs v => fs.record key bs v) region (Option.getD v fs.fresh)).map
          fun v => (rest, (some v : Option fs.Value))
  | .repeatedMessage fs, _, bs, vs =>
      (readLengthDelimited bs).bind fun (region, rest) =>
        (consume (decodeStep fun key bs v => fs.record key bs v) region fs.fresh).map
          fun v => (rest, (List.append vs [v] : List fs.Value))

/-- The `switch` over the field number. -/
def Fields.record : (fs : Fields) → Key → Bytes → fs.Value → Option (Bytes × fs.Value)
  | .nil, key, bs, v => (skipField key.wireType bs).map fun rest => (rest, v)
  | .cons number field rest, key, bs, (v, vs) =>
      if key.fieldNumber = BitVec.ofNat 32 number then
        (field.decode key.wireType bs v).map fun (bs, v) => (bs, (v, vs))
      else (rest.record key bs vs).map fun (bs, vs) => (bs, (v, vs))

end

/-- `decode` into a message: `none` for `false`. -/
def Fields.decode (fs : Fields) (bs : Bytes) (v : fs.Value) : Option fs.Value :=
  consume (decodeStep fs.record) bs v

end EsphomeApi.Proto
