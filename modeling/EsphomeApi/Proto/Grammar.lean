/-
EsphomeApi.Proto.Grammar — the proto3 wire grammar, and how far the generated
`decode` follows it.

The grammar reads a message as a list of records, each of them a field number
and a payload, whatever the schema is; `Fields.update` then says what a record
does to a message. The generated `decode` looks at the field number alone and
lets the member's case read what it expects, so it follows the grammar exactly
on the inputs where every tag fits the class, or the wrong case is idle
(`followsGrammar_iff`).
-/
import EsphomeApi.Proto.CodecTheorems

namespace EsphomeApi.Proto

open Library

/-! ## Records -/

/-- The payload of a record, by the wire types 0, 1, 2 and 5. -/
inductive Payload where
  | varint (word : BitVec 64)
  | fixed64 (word : BitVec 64)
  | lengthDelimited (region : Bytes)
  | fixed32 (word : BitVec 32)

structure Record where
  number : Nat
  payload : Payload

/-- A complete payload of a wire type. -/
def readPayload (wt : WireType) (bs : Bytes) : Option (Payload × Bytes) :=
  if wt = .varint then (readVarint bs).map fun (v, rest) => (.varint v, rest)
  else if wt = .fixed64 then (readFixed64 bs).map fun (v, rest) => (.fixed64 v, rest)
  else if wt = .fixed32 then (readFixed32 bs).map fun (v, rest) => (.fixed32 v, rest)
  else if wt = .lengthDelimited then
    (readLengthDelimited bs).map fun (region, rest) => (.lengthDelimited region, rest)
  else none

def readRecord (bs : Bytes) : Option (Record × Bytes) :=
  (readTag bs).bind fun (key, rest) =>
    (readPayload key.wireType rest).map fun (payload, rest) => (⟨key.wireNumber, payload⟩, rest)

/-- The place behind a record. -/
def skipRecord (bs : Bytes) : Option Bytes := (readRecord bs).map Prod.snd

/-! ## What a record does to a message -/

/-- The value of an element, if the payload is of the element's wire type. -/
def ScalarType.ofPayload : (s : ScalarType) → Payload → Option s.Value
  | .double, .fixed64 v => some v
  | .fixed64, .fixed64 v => some v
  | .sfixed64, .fixed64 v => some v
  | .float, .fixed32 v => some v
  | .fixed32, .fixed32 v => some v
  | .sfixed32, .fixed32 v => some v
  | .int32, .varint v => some (v.setWidth 32)
  | .int64, .varint v => some v
  | .uint32, .varint v => some (v.setWidth 32)
  | .uint64, .varint v => some v
  | .sint32, .varint v => some (zigzagDecode (v.setWidth 32))
  | .sint64, .varint v => some (zigzagDecode v)
  | .bool, .varint v => some (v != 0#64)
  | .enum, .varint v => some (v.setWidth 32)
  | _, _ => none

/-- The region of a length-delimited payload. -/
def Payload.region : Payload → Option Bytes
  | .lengthDelimited region => some region
  | _ => none

mutual

/-- The last record wins for a singular number or string, a sub-message is
merged into the one that is there, and a repeated member grows. A payload that
is not one for the member changes nothing; `none` is a packed region that does
not split into elements, or a sub-message that does not split into records. -/
def Field.update : (field : Field) → Payload → field.Value → Option field.Value
  | .scalar s, p, v => some ((s.ofPayload p).getD v)
  | .repeatedScalar s _, p, vs =>
      p.region.elim (some (vs ++ (s.ofPayload p).toList)) fun region =>
        (split (readValue s) region).map fun elements => vs ++ elements
  | .blob, p, v => some (p.region.getD v)
  | .repeatedBlob, p, vs => some (List.append vs p.region.toList)
  | .message fs, p, v =>
      p.region.elim (some v) fun region =>
        ((split readRecord region).bind fun records =>
          records.foldlM (fun v r => fs.update r v) (Option.getD v fs.fresh)).map
            fun v => (some v : Option fs.Value)
  | .repeatedMessage fs, p, vs =>
      p.region.elim (some vs) fun region =>
        ((split readRecord region).bind fun records =>
          records.foldlM (fun v r => fs.update r v) fs.fresh).map
            fun v => (List.append vs [v] : List fs.Value)

/-- A record changes the member of its number, and nothing if there is none. -/
def Fields.update : (fs : Fields) → Record → fs.Value → Option fs.Value
  | .nil, _, v => some v
  | .cons number field rest, r, (v, vs) =>
      if r.number = number then (field.update r.payload v).map fun v => (v, vs)
      else (rest.update r vs).map fun vs => (v, vs)

end

/-- A whole input, read by the grammar: it splits into records, and each of
them in turn changes the message. -/
def Fields.grammarDecode (fs : Fields) (bs : Bytes) (v : fs.Value) : Option fs.Value :=
  (split readRecord bs).bind fun records => records.foldlM (fun v r => fs.update r v) v

/-! ## Tags that fit a class -/

/-- The declared wire type, or packed for a repeated number. -/
def Field.validWireType : Field → WireType → Prop
  | .scalar s, wt => wt = s.wireType
  | .repeatedScalar s _, wt => wt = s.wireType ∨ wt = .lengthDelimited
  | _, wt => wt = .lengthDelimited

/-- A record for a member of the class, of a wire type that is valid for it. -/
def Fields.Valid : Fields → Key → Prop
  | .nil, _ => False
  | .cons number field rest, key =>
      (key.wireNumber = number ∧ field.validWireType key.wireType) ∨ rest.Valid key

/-- The tag is valid, or the decoder's 32 bits of its number are no member's. -/
def Fields.Fits (fs : Fields) (key : Key) : Prop :=
  fs.Valid key ∨ ∀ n ∈ fs.numbers, key.fieldNumber ≠ BitVec.ofNat 32 n

/-- A packed run of no elements. -/
def Field.EmptyRun : Field → WireType → Bytes → Prop
  | .repeatedScalar _ _, wt, bs =>
      wt = .lengthDelimited ∧ ∃ rest, readLengthDelimited bs = some ([], rest)
  | _, _, _ => False

/-- A member's case does no harm where it should not run: it fails where there is
no complete payload of the wire type either, or it reads a run of no elements. -/
def Field.Idle (field : Field) (wt : WireType) (bs : Bytes) : Prop :=
  skipField wt bs = none ∧ field.decode wt bs field.fresh = none ∨ field.EmptyRun wt bs

/-- The case that the `switch` runs is idle. -/
def Fields.Idle : Fields → Key → Bytes → Prop
  | .nil, _, _ => False
  | .cons number field rest, key, bs =>
      if key.fieldNumber = BitVec.ofNat 32 number then field.Idle key.wireType bs
      else rest.Idle key bs

/-- The tag fits, or what follows it leaves the wrong case idle. -/
def Fields.FitsAt (fs : Fields) (key : Key) (bs : Bytes) : Prop := fs.Fits key ∨ fs.Idle key bs

/-! ## What the decoder does at a tag -/

/-- The decoder skips what follows the tag by its wire type, and leaves the
message as it is. -/
def Fields.Skips (fs : Fields) (key : Key) (bs : Bytes) : Prop :=
  ∀ v, fs.record key bs v = (skipField key.wireType bs).map fun rest => (rest, v)

/-- The decoder does behind a tag what the grammar does. -/
def Fields.FollowsAt (fs : Fields) (key : Key) (bs : Bytes) : Prop :=
  ∀ v, fs.record key bs v = (readPayload key.wireType bs).bind fun (p, rest) =>
    (fs.update ⟨key.wireNumber, p⟩ v).map fun v => (rest, v)

/-- `P` holds at every tag where a record starts. -/
def AtTags (P : Key → Bytes → Prop) (bs : Bytes) : Prop :=
  ∀ tail, Starts skipRecord bs tail → ∀ key rest, readTag tail = some (key, rest) → P key rest

mutual

/-- `Q` holds at every tag of the sub-message of a member, at every level. -/
def Field.Nested (Q : Fields → Key → Bytes → Prop) : Field → WireType → Bytes → Prop
  | .message fs, wt, bs => wt = .lengthDelimited → ∀ region rest,
      readLengthDelimited bs = some (region, rest) →
        AtTags (fun key bs => Q fs key bs ∧ fs.Nested Q key bs) region
  | .repeatedMessage fs, wt, bs => wt = .lengthDelimited → ∀ region rest,
      readLengthDelimited bs = some (region, rest) →
        AtTags (fun key bs => Q fs key bs ∧ fs.Nested Q key bs) region
  | _, _, _ => True

def Fields.Nested (Q : Fields → Key → Bytes → Prop) : Fields → Key → Bytes → Prop
  | .nil, _, _ => True
  | .cons number field rest, key, bs =>
      (key.wireNumber = number → field.Nested Q key.wireType bs) ∧ rest.Nested Q key bs

end

/-- `Q` holds at every tag of an input, and of the sub-messages in it. -/
def Fields.EveryTag (Q : Fields → Key → Bytes → Prop) (fs : Fields) (bs : Bytes) : Prop :=
  AtTags (fun key bs => Q fs key bs ∧ fs.Nested Q key bs) bs

end EsphomeApi.Proto
