/-
EsphomeApi.Proto.Reader — `ProtoReader` with its two pointers, and the `decode`
that `protogen` generates, as far as it reads.

The codec reads lists, which cannot be read past their end. Here a reader is
what it is in `wire.hpp`: two addresses and a flag, over a memory that has a
byte at every address. What happens is written to a log: each byte that is
read, each region that is handed to another reader, the turns of the two
loops, and each call of `fail`. What `decode` stores in the members is left to
the codec; nothing that is read depends on it.

A schema gives the fields of each message by its name, so a message may hold
itself. `decode` has no answer when its fuel is used up.
-/
import EsphomeApi.Proto.Codec

namespace EsphomeApi.Proto

/-- The bytes in memory, by address. -/
abbrev Memory := Nat → UInt8

/-! ## Readers -/

/-- `ProtoReader`: `ptr_`, `end_` and `ok_`. -/
structure ProtoReader where
  ptr : Nat
  end_ : Nat
  ok : Bool := true
  deriving DecidableEq, Repr

def ProtoReader.eof (r : ProtoReader) : Bool := r.end_ ≤ r.ptr

/-- `end_ - ptr_`. -/
def ProtoReader.distance (r : ProtoReader) : Int := r.end_ - r.ptr

/-- What happens while a message is decoded. -/
inductive ReaderEvent where
  | read (address : Nat)
  | failed
  | region (parent sub : ProtoReader)
  | fieldTurn (before after : Nat)
  | elementTurn (type : ScalarType) (before after end_ : Nat)
  deriving DecidableEq, Repr

/-- A reader, and what has happened so far. -/
structure Reading where
  reader : ProtoReader
  log : List ReaderEvent := []
  deriving DecidableEq, Repr

namespace Reading

def note (r : Reading) (e : ReaderEvent) : Reading := { r with log := r.log ++ [e] }

def fail (r : Reading) : Reading :=
  { reader := { r.reader with ok := false }, log := r.log ++ [.failed] }

/-- `ptr_ += n`. -/
def skip (r : Reading) (n : Nat) : Reading :=
  { r with reader := { r.reader with ptr := r.reader.ptr + n } }

/-- The `n` bytes at `ptr_` are read. -/
def touch (r : Reading) (n : Nat) : Reading :=
  { r with log := r.log ++ (List.range n).map fun i => .read (r.reader.ptr + i) }

/-- The `n` bytes at `ptr_` are read and passed. -/
def take (r : Reading) (n : Nat) : Reading := (r.touch n).skip n

def bytesAt (mem : Memory) (r : Reading) (n : Nat) : Bytes :=
  (List.range n).map fun i => mem (r.reader.ptr + i)

/-- The loop of `varint` from bit `shift` on, with `n` turns left. -/
def varintLoop (mem : Memory) : Nat → Nat → BitVec 64 → Reading → Option (BitVec 64) × Reading
  | 0, _, _, r => (none, r.fail)
  | n + 1, shift, result, r =>
      if r.reader.eof then (none, r.fail)
      else
        let b := mem r.reader.ptr
        let r := r.take 1
        let result := result ||| ((b &&& 0x7F).toBitVec.setWidth 64 <<< shift)
        if b &&& 0x80 = 0 then (some result, r) else varintLoop mem n (shift + 7) result r

def varint (mem : Memory) (r : Reading) : Option (BitVec 64) × Reading := varintLoop mem 10 0 0 r

/-- `fixed32` and `fixed64`. -/
def fixed (mem : Memory) (w bytes : Nat) (r : Reading) : Option (BitVec w) × Reading :=
  if r.reader.distance < bytes then (none, r.fail)
  else (some (wordOfBytes w 0 (r.bytesAt mem bytes)), r.take bytes)

/-- What `length_delimited`, `sub_reader` and `skip_field` start with: a length
that is not more than what is left. -/
def regionLength (mem : Memory) (r : Reading) : Option Nat × Reading :=
  match r.varint mem with
  | (none, r) => (none, r)
  | (some len, r) =>
      if BitVec.ofInt 64 r.reader.distance < len then (none, r.fail) else (some len.toNat, r)

def lengthDelimited (mem : Memory) (r : Reading) : Option Bytes × Reading :=
  match r.regionLength mem with
  | (none, r) => (none, r)
  | (some len, r) => (some (r.bytesAt mem len), r.take len)

def subReader (mem : Memory) (r : Reading) : Option ProtoReader × Reading :=
  match r.regionLength mem with
  | (none, r) => (none, r)
  | (some len, r) =>
      let sub : ProtoReader := { ptr := r.reader.ptr, end_ := r.reader.ptr + len }
      (some sub, (r.note (.region r.reader sub)).skip len)

/-- A reading function whose value is not looked at. -/
def succeeded {α : Type} (result : Option α × Reading) : Bool × Reading :=
  (result.1.isSome, result.2)

def skipField (mem : Memory) (wt : WireType) (r : Reading) : Bool × Reading :=
  if wt = .varint then succeeded (r.varint mem)
  else if wt = .fixed64 then succeeded (r.fixed mem 64 8)
  else if wt = .fixed32 then succeeded (r.fixed mem 32 4)
  else if wt = .lengthDelimited then
    match r.regionLength mem with
    | (none, r) => (false, r)
    | (some len, r) => (true, r.skip len)
  else (false, r.fail)

/-- `read_tag`. -/
def readTag (mem : Memory) (r : Reading) : Option Key × Reading :=
  if r.reader.eof then (none, r)
  else
    match r.varint mem with
    | (none, r) => (none, r)
    | (some key, r) => (some ⟨key⟩, r)

end Reading

/-! ## `decode` -/

/-- The size of an element that is read with `fixed32` or `fixed64`. -/
def ScalarType.fixedSize : ScalarType → Option Nat
  | .double => some 8
  | .fixed64 => some 8
  | .sfixed64 => some 8
  | .float => some 4
  | .fixed32 => some 4
  | .sfixed32 => some 4
  | _ => none

namespace Reading

/-- The call of `read_info`. -/
def readRaw (mem : Memory) (type : ScalarType) (r : Reading) : Bool × Reading :=
  match type.fixedSize with
  | some n => succeeded (r.fixed mem (8 * n) n)
  | none => succeeded (r.varint mem)

/-- The loop over a packed field, on its own reader. -/
def packedLoop (mem : Memory) (type : ScalarType) : Nat → Reading → Option (Bool × Reading)
  | 0, _ => none
  | fuel + 1, sub =>
      if sub.reader.eof then some (sub.reader.ok, sub)
      else
        let (done, next) := sub.readRaw mem type
        let next := next.note
          (.elementTurn type sub.reader.ptr next.reader.ptr next.reader.end_)
        if done then packedLoop mem type fuel next else some (false, next)

/-- Go on with `r` after its sub-reader did `result`. -/
def resume (r : Reading) (result : Bool × Reading) : Bool × Reading :=
  (result.1, { r with log := result.2.log })

/-- Run `body` on the sub-reader that `sub_reader` gives. -/
def withSub (mem : Memory) (r : Reading) (body : Reading → Option (Bool × Reading)) :
    Option (Bool × Reading) :=
  match r.subReader mem with
  | (none, r) => some (false, r)
  | (some sub, r) => (body { reader := sub, log := r.log }).map r.resume

/-- `emit_decode_field`: the case of a field, from behind the tag on. `decode`
is what runs on the reader of a sub-message. -/
def decodeField (mem : Memory) (decode : CString → Reading → Option (Bool × Reading)) (fuel : Nat)
    (f : ProtoField) (wt : WireType) (r : Reading) : Option (Bool × Reading) :=
  match f.type with
  | .message => r.withSub mem (decode f.typeName)
  | .string => some (succeeded (r.lengthDelimited mem))
  | .bytes => some (succeeded (r.lengthDelimited mem))
  | .scalar type =>
      if f.repeated = true ∧ wt = .lengthDelimited then r.withSub mem (packedLoop mem type fuel)
      else some (r.readRaw mem type)

/-- The `switch` over the field number. -/
def decodeRecord (mem : Memory) (decode : CString → Reading → Option (Bool × Reading))
    (fuel : Nat) (fields : List ProtoField) (key : Key) (r : Reading) : Option (Bool × Reading) :=
  match fields.find? fun f => key.fieldNumber = BitVec.ofNat 32 f.number with
  | some f => r.decodeField mem decode fuel f key.wireType
  | none => some (r.skipField mem key.wireType)

end Reading

/-- The fields of each message, in the order of the generated code. -/
abbrev Schema := CString → List ProtoField

/-- The schema of a file. -/
def fileSchema (file : List ProtoMessageDef) : Schema := fun name =>
  ((file.find? fun m => m.name = name).map ProtoMessageDef.sortedFields).getD []

/-- The loop of `decode` of the message `name`: whether it returns `true`. -/
def decodeLoop (mem : Memory) (S : Schema) : Nat → CString → Reading → Option (Bool × Reading)
  | 0, _, _ => none
  | fuel + 1, name, r =>
      match r.readTag mem with
      | (none, r) => some (r.reader.ok, r)
      | (some key, tagged) =>
          match tagged.decodeRecord mem (decodeLoop mem S fuel) fuel (S name) key with
          | none => none
          | some (done, next) =>
              let next := next.note (.fieldTurn r.reader.ptr next.reader.ptr)
              if done then decodeLoop mem S fuel name next else some (false, next)

/-- `decode` of the `size` bytes from `base` on. -/
def decodeRange (mem : Memory) (S : Schema) (name : CString) (base size : Nat) :
    Option (Bool × Reading) :=
  decodeLoop mem S (size + 1) name { reader := { ptr := base, end_ := base + size } }

end EsphomeApi.Proto
