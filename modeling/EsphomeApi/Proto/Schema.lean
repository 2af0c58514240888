/-
EsphomeApi.Proto.Schema — the schemas of `protogen` and the values of the
message classes it generates.

A resolved schema (`model.hpp`) names message types; a generated class holds
its sub-messages by value, so its message types have to be declared before it
in the generated header. `layout` follows that rule and turns the list of
definitions into one tree of fields for each class (`Fields`), with the members
in ascending order of their numbers, as `sorted_fields` puts them. The one
header that C++ takes and `layout` does not is that of a message that repeats
itself (a `std::vector` of a class inside that class): such a type has no tree
of fields. `Proto.Reader` has the decoder for it too.
-/
import Mathlib.Data.List.Sort
import EsphomeApi.Exception
import EsphomeApi.Proto.Wire

namespace EsphomeApi.Proto

/-! ## `model.hpp` -/

/-- The types that are a number on the wire: the scalars and `Enum`. -/
inductive ScalarType where
  | double
  | float
  | int32
  | int64
  | uint32
  | uint64
  | sint32
  | sint64
  | fixed32
  | fixed64
  | sfixed32
  | sfixed64
  | bool
  | enum
  deriving DecidableEq, Repr

/-- `FieldType`, after `resolve_types`. -/
inductive FieldType where
  | scalar (type : ScalarType)
  | string
  | bytes
  | message
  deriving DecidableEq, Repr

structure ProtoField where
  typeName : CString := []
  type : FieldType
  number : Nat
  repeated : Bool := false
  packedExplicit : Bool := false
  packedValue : Bool := false

structure ProtoMessageDef where
  name : CString
  fields : List ProtoField

/-- `is_packed`. -/
def ProtoField.isPacked (f : ProtoField) : Bool :=
  match f.type with
  | .scalar _ => f.repeated && (if f.packedExplicit then f.packedValue else true)
  | _ => false

/-! ## Generated classes -/

mutual

/-- A member of a generated class. A `string` and a `bytes` field are both a
`std::string`. -/
inductive Field where
  | scalar (type : ScalarType)
  | repeatedScalar (type : ScalarType) (packed : Bool)
  | blob
  | repeatedBlob
  | message (fields : Fields)
  | repeatedMessage (fields : Fields)

/-- The members of a generated class, with their numbers. -/
inductive Fields where
  | nil
  | cons (number : Nat) (field : Field) (rest : Fields)

end

/-- The classes declared so far. -/
abbrev Classes := List (CString × Fields)

/-- The member for a field, if its type is declared. -/
def ProtoField.member (classes : Classes) (f : ProtoField) : Option Field :=
  match f.type with
  | .scalar type => some (if f.repeated then .repeatedScalar type f.isPacked else .scalar type)
  | .string => some (if f.repeated then .repeatedBlob else .blob)
  | .bytes => some (if f.repeated then .repeatedBlob else .blob)
  | .message => (classes.lookup f.typeName).map fun fields =>
      if f.repeated then .repeatedMessage fields else .message fields

/-- `sorted_fields`. -/
def ProtoMessageDef.sortedFields (m : ProtoMessageDef) : List ProtoField :=
  m.fields.insertionSort fun a b => a.number ≤ b.number

/-- The members for a list of fields. -/
def members (classes : Classes) : List ProtoField → Option Fields
  | [] => some .nil
  | f :: fs =>
      match f.member classes, members classes fs with
      | some field, some rest => some (.cons f.number field rest)
      | _, _ => none

/-- The classes of a file, in the order of its messages. -/
def layout : Classes → List ProtoMessageDef → Option Classes
  | classes, [] => some classes
  | classes, m :: ms =>
      match members classes m.sortedFields with
      | some fields => layout (classes ++ [(m.name, fields)]) ms
      | none => none

/-! ## Values -/

/-- The C++ type of one element: 32-bit and 64-bit integers and floating-point
numbers are their bits. -/
@[reducible] def ScalarType.Value : ScalarType → Type
  | .double => BitVec 64
  | .float => BitVec 32
  | .int32 => BitVec 32
  | .int64 => BitVec 64
  | .uint32 => BitVec 32
  | .uint64 => BitVec 64
  | .sint32 => BitVec 32
  | .sint64 => BitVec 64
  | .fixed32 => BitVec 32
  | .fixed64 => BitVec 64
  | .sfixed32 => BitVec 32
  | .sfixed64 => BitVec 64
  | .bool => Bool
  | .enum => BitVec 32

instance (s : ScalarType) : DecidableEq s.Value := by
  cases s <;> exact inferInstance

/-- The value `{}` of an element. -/
def ScalarType.zero : (s : ScalarType) → s.Value
  | .double => 0#64
  | .float => 0#32
  | .int32 => 0#32
  | .int64 => 0#64
  | .uint32 => 0#32
  | .uint64 => 0#64
  | .sint32 => 0#32
  | .sint64 => 0#64
  | .fixed32 => 0#32
  | .fixed64 => 0#64
  | .sfixed32 => 0#32
  | .sfixed64 => 0#64
  | .bool => false
  | .enum => 0#32

mutual

/-- What a member holds. A singular sub-message is its value together with its
presence flag: nothing but `mutable_x` and `decode` writes to it, and both set
the flag, so without the flag it is a fresh message. -/
@[reducible] def Field.Value : Field → Type
  | .scalar s => s.Value
  | .repeatedScalar s _ => List s.Value
  | .blob => Bytes
  | .repeatedBlob => List Bytes
  | .message fs => Option fs.Value
  | .repeatedMessage fs => List fs.Value

@[reducible] def Fields.Value : Fields → Type
  | .nil => Unit
  | .cons _ field rest => field.Value × rest.Value

end

mutual

/-- A member of a fresh message. -/
def Field.fresh : (field : Field) → field.Value
  | .scalar s => s.zero
  | .repeatedScalar s _ => ([] : List s.Value)
  | .blob => ([] : Bytes)
  | .repeatedBlob => ([] : List Bytes)
  | .message fs => (none : Option fs.Value)
  | .repeatedMessage fs => ([] : List fs.Value)

/-- A fresh message. -/
def Fields.fresh : (fs : Fields) → fs.Value
  | .nil => ()
  | .cons _ field rest => (field.fresh, rest.fresh)

end

/-! ## What protogen and the C++ compiler check -/

/-- Distinct positive field numbers below 2^29, as a message declares them. -/
structure ProtoMessageDef.NumbersOk (m : ProtoMessageDef) : Prop where
  positive : ∀ f ∈ m.fields, 0 < f.number
  bound : ∀ f ∈ m.fields, f.number < 2 ^ 29
  distinct : (m.fields.map ProtoField.number).Nodup

/-- The numbers of a class. -/
def Fields.numbers : Fields → List Nat
  | .nil => []
  | .cons number _ rest => number :: rest.numbers

mutual

/-- The numbers are distinct and below 2^29, at every level. -/
def Field.WellFormed : Field → Prop
  | .message fs => fs.WellFormed
  | .repeatedMessage fs => fs.WellFormed
  | _ => True

def Fields.WellFormed : Fields → Prop
  | .nil => True
  | .cons number field rest =>
      number < 2 ^ 29 ∧ number ∉ rest.numbers ∧ field.WellFormed ∧ rest.WellFormed

end

theorem members_numbers {classes : Classes} : ∀ {fields : List ProtoField} {fs : Fields},
    members classes fields = some fs → fs.numbers = fields.map ProtoField.number
  | [], fs, h => by
      obtain rfl := Option.some_inj.mp h
      rfl
  | f :: fields, fs, h => by
      unfold members at h
      split at h
      · rename_i field rest _ hrest
        obtain rfl := Option.some_inj.mp h
        rw [Fields.numbers, List.map_cons, members_numbers hrest]
      · exact nomatch h

theorem member_wellFormed {classes : Classes} (hclasses : ∀ c ∈ classes, c.2.WellFormed)
    {f : ProtoField} {field : Field} (h : f.member classes = some field) : field.WellFormed := by
  unfold ProtoField.member at h
  split at h
  · obtain rfl := Option.some_inj.mp h
    split <;> trivial
  · obtain rfl := Option.some_inj.mp h
    split <;> trivial
  · obtain rfl := Option.some_inj.mp h
    split <;> trivial
  · obtain ⟨fs, hlookup, rfl⟩ := Option.map_eq_some_iff.mp h
    obtain ⟨before, after, rfl, -⟩ := List.lookup_eq_some_iff.mp hlookup
    have hfs : fs.WellFormed := hclasses (f.typeName, fs) (by simp)
    split <;> exact hfs

theorem members_wellFormed {classes : Classes} (hclasses : ∀ c ∈ classes, c.2.WellFormed) :
    ∀ {fields : List ProtoField} {fs : Fields}, members classes fields = some fs →
      (∀ f ∈ fields, f.number < 2 ^ 29) → (fields.map ProtoField.number).Nodup → fs.WellFormed
  | [], fs, h, _, _ => by
      obtain rfl := Option.some_inj.mp h
      trivial
  | f :: fields, fs, h, hbound, hdistinct => by
      unfold members at h
      split at h
      · rename_i field rest hfield hrest
        obtain rfl := Option.some_inj.mp h
        rw [List.map_cons, List.nodup_cons] at hdistinct
        refine ⟨hbound f (List.mem_cons_self ..), ?_, ?_, ?_⟩
        · rw [members_numbers hrest]
          exact hdistinct.1
        · exact member_wellFormed hclasses hfield
        · exact members_wellFormed hclasses hrest
            (fun g hg => hbound g (List.mem_cons_of_mem _ hg)) hdistinct.2
      · exact nomatch h

/-- Every class of a file whose messages have good numbers is well formed. -/
theorem layout_wellFormed : ∀ {ms : List ProtoMessageDef} {classes classes' : Classes},
    layout classes ms = some classes' → (∀ c ∈ classes, c.2.WellFormed) →
    (∀ m ∈ ms, m.NumbersOk) → ∀ c ∈ classes', c.2.WellFormed
  | [], classes, classes', h, hclasses, _ => Option.some_inj.mp h ▸ hclasses
  | m :: ms, classes, classes', h, hclasses, hms => by
      unfold layout at h
      split at h
      · rename_i fs hfs
        refine layout_wellFormed h ?_ fun m' hm' => hms m' (List.mem_cons_of_mem _ hm')
        intro c hc
        rcases List.mem_append.mp hc with hc | hc
        · exact hclasses c hc
        · obtain rfl := List.mem_singleton.mp hc
          have hm := hms m (List.mem_cons_self ..)
          have hperm : m.sortedFields.Perm m.fields := List.perm_insertionSort ..
          exact members_wellFormed hclasses hfs (fun f hf => hm.bound f (hperm.mem_iff.mp hf))
            ((hperm.map ProtoField.number).nodup_iff.mpr hm.distinct)
      · exact nomatch h

end EsphomeApi.Proto
