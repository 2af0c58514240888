/-
EsphomeApi.Proto.Serialize — the wrappers of `proto_message.hpp` around the
generated functions, and `serialize` of `connection.cpp`, which every message
that is sent goes through.

`SerializeToArray` takes the size of a message as an `int`, so `serialize`
hands `static_cast<int>` of a `std::size_t` on. A size is a natural number
here: a message of 2^64 bytes has no room in memory.

`delimited` is the encoding as the wire format means it: behind every length
prefix, at every level, stands a region of that length. `encode` gets there
with sizes that another generated function computes in advance.
-/
import EsphomeApi.Exception
import EsphomeApi.Proto.RoundTrip

namespace EsphomeApi.Proto

open Library

/-! ## The wrappers -/

/-- `static_cast<int>` of a size. -/
def intOfSize (n : Nat) : Int := (BitVec.ofNat 32 n).toInt

/-- `ByteSizeLong`. -/
def Fields.byteSizeLong (fs : Fields) (v : fs.Value) : Nat := fs.calculateSize v

/-- `SerializeToArray`: what it returns, and the buffer after it. -/
def Fields.serializeToArray (fs : Fields) (v : fs.Value) (data : Bytes) (size : Int) : Bool × Bytes :=
  if size < 0 then (false, data)
  else
    let buf := fs.encode v
    if buf.length ≠ size.toNat then (false, data) else (true, buf ++ data.drop buf.length)

/-- `SerializeAsString`. -/
def Fields.serializeAsString (fs : Fields) (v : fs.Value) : Bytes := fs.encode v

def serializeFailed : ApiException :=
  ⟨.protocolError, lit "failed to serialize outgoing protobuf message"⟩

/-- `serialize`. -/
def Fields.serialize (fs : Fields) (v : fs.Value) : Except ApiException Bytes :=
  let n := fs.byteSizeLong v
  let out := List.replicate n 0
  if n = 0 then .ok out
  else
    match fs.serializeToArray v out (intOfSize n) with
    | (true, out) => .ok out
    | (false, _) => .error serializeFailed

/-! ## Length prefixes -/

mutual

/-- The encoding of a member, with regions delimited by their own lengths. -/
def Field.delimited (number : BitVec 32) : (field : Field) → field.Value → Bytes
  | .scalar s, v => if nondefault s v then writeTag number s.wireType ++ writeValue s v else []
  | .repeatedScalar s true, vs =>
      if List.isEmpty vs then []
      else writeTag number .lengthDelimited ++ writeLengthDelimited (List.flatMap (writeValue s) vs)
  | .repeatedScalar s false, vs =>
      List.flatMap (fun v => writeTag number s.wireType ++ writeValue s v) vs
  | .blob, v =>
      if List.isEmpty v then [] else writeTag number .lengthDelimited ++ writeLengthDelimited v
  | .repeatedBlob, vs =>
      List.flatMap (fun v => writeTag number .lengthDelimited ++ writeLengthDelimited v) vs
  | .message fs, v =>
      Option.elim v [] fun v =>
        writeTag number .lengthDelimited ++ writeLengthDelimited (fs.delimited v)
  | .repeatedMessage fs, vs =>
      List.flatMap (fun v =>
        writeTag number .lengthDelimited ++ writeLengthDelimited (fs.delimited v)) vs

/-- The encoding of a message, with regions delimited by their own lengths. -/
def Fields.delimited : (fs : Fields) → fs.Value → Bytes
  | .nil, _ => []
  | .cons number field rest, (v, vs) =>
      field.delimited (BitVec.ofNat 32 number) v ++ rest.delimited vs

end

mutual

theorem Field.encode_eq_delimited (number : BitVec 32) : ∀ (field : Field) (v : field.Value),
    field.encode number v = field.delimited number v
  | .scalar s, v => by
      unfold Field.encode Field.delimited
      rfl
  | .repeatedScalar s true, vs => by
      unfold Field.encode Field.delimited
      rw [packedSize_eq, writeLengthDelimited, List.append_assoc]
  | .repeatedScalar s false, vs => by
      unfold Field.encode Field.delimited
      rfl
  | .blob, v => by
      unfold Field.encode Field.delimited
      rfl
  | .repeatedBlob, vs => by
      unfold Field.encode Field.delimited
      rfl
  | .message fs, none => rfl
  | .message fs, some v => by
      unfold Field.encode Field.delimited
      simp only [Option.elim_some]
      rw [List.append_assoc, writeLengthDelimited_encode, fs.encode_eq_delimited v]
  | .repeatedMessage fs, vs => by
      unfold Field.encode Field.delimited
      refine List.flatMap_congr fun v _ => ?_
      rw [List.append_assoc, writeLengthDelimited_encode, fs.encode_eq_delimited v]

/-- The sizes that `encode` writes in front of packed runs and sub-messages
are the lengths of these. -/
theorem Fields.encode_eq_delimited : ∀ (fs : Fields) (v : fs.Value), fs.encode v = fs.delimited v
  | .nil, _ => rfl
  | .cons number field rest, (v, vs) => by
      unfold Fields.encode Fields.delimited
      rw [field.encode_eq_delimited, rest.encode_eq_delimited]

end

/-! ## Buffers -/

theorem intOfSize_of_lt {n : Nat} (h : n < 2 ^ 31) : intOfSize n = n := by
  have hmod : (BitVec.ofNat 32 n).toNat = n := by
    rw [BitVec.toNat_ofNat]
    omega
  rw [intOfSize, BitVec.toInt_eq_toNat_of_lt (by omega), hmod]

/-- The cast of a larger size is never that size. -/
theorem intOfSize_of_ge {n : Nat} (h : 2 ^ 31 ≤ n) : intOfSize n < 0 ∨ (intOfSize n).toNat ≠ n := by
  have hlt : 2 * intOfSize n < 2 ^ 32 := BitVec.two_mul_toInt_lt
  omega

theorem Fields.serializeToArray_of_length {fs : Fields} {v : fs.Value} {size : Int}
    (hsize : size = (fs.encode v).length) (data : Bytes) :
    fs.serializeToArray v data size = (true, fs.encode v ++ data.drop (fs.encode v).length) := by
  subst hsize
  unfold Fields.serializeToArray
  simp

theorem Fields.serializeToArray_of_ne {fs : Fields} {v : fs.Value} {size : Int}
    (hsize : size < 0 ∨ size.toNat ≠ (fs.encode v).length) (data : Bytes) :
    fs.serializeToArray v data size = (false, data) := by
  unfold Fields.serializeToArray
  rcases hsize with hneg | hne
  · rw [if_pos hneg]
  · split
    · rfl
    · exact if_pos hne.symm

/-- `serialize` gives the encoding of a message of less than 2^31 bytes. -/
theorem Fields.serialize_of_lt {fs : Fields} {v : fs.Value} (h : (fs.encode v).length < 2 ^ 31) :
    fs.serialize v = .ok (fs.encode v) := by
  have hsize : fs.byteSizeLong v = (fs.encode v).length := fs.calculateSize_eq v
  unfold Fields.serialize
  simp only [hsize]
  split
  · next hzero => rw [hzero, List.length_eq_zero_iff.mp hzero, List.replicate_zero]
  · rw [Fields.serializeToArray_of_length (intOfSize_of_lt h)]
    simp

/-- `serialize` throws for every longer one: the cast loses its size. -/
theorem Fields.serialize_of_ge {fs : Fields} {v : fs.Value} (h : 2 ^ 31 ≤ (fs.encode v).length) :
    fs.serialize v = .error serializeFailed := by
  have hsize : fs.byteSizeLong v = (fs.encode v).length := fs.calculateSize_eq v
  unfold Fields.serialize
  simp only [hsize]
  rw [if_neg (by omega), Fields.serializeToArray_of_ne (intOfSize_of_ge h)]

/-- `calculate_size` is exact for every message, with length prefixes that are
exact at every level; so a buffer of that size is filled, and `serialize` does
not throw, unless the message has 2^31 bytes or more. -/
theorem serialize_exact (fs : Fields) (v : fs.Value) :
    fs.calculateSize v = (fs.encode v).length ∧
    fs.encode v = fs.delimited v ∧
    (fs.serializeAsString v).length = fs.byteSizeLong v ∧
    ((fs.encode v).length < 2 ^ 31 →
      (∀ data, fs.serializeToArray v data (intOfSize (fs.byteSizeLong v)) =
        (true, fs.encode v ++ data.drop (fs.encode v).length)) ∧
      fs.serialize v = .ok (fs.encode v)) := by
  have hsize : fs.byteSizeLong v = (fs.encode v).length := fs.calculateSize_eq v
  refine ⟨hsize, fs.encode_eq_delimited v, hsize.symm, fun h => ⟨fun data => ?_, ?_⟩⟩
  · rw [hsize]
    exact Fields.serializeToArray_of_length (intOfSize_of_lt h) data
  · exact Fields.serialize_of_lt h

/-- A message with two sub-messages, one of them in an array. -/
theorem serialize_exact_sample :
    let v := sampleValue ((lit "ab" : Bytes), ([5#32, -3#32, 300#32] : List (BitVec 32)), ())
      (([] : Bytes), ([] : List (BitVec 32)), ())
    sampleOuter.serialize v = .ok (sampleOuter.encode v) := by
  intro v
  have hsize : (sampleOuter.encode v).length < 2 ^ 31 := by decide
  exact ((serialize_exact sampleOuter v).2.2.2 hsize).2

end EsphomeApi.Proto
