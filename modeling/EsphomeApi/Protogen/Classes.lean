/-
EsphomeApi.Protogen.Classes — the classes of the header that a run generates.

`emit_messages` writes a class for each message of the resolved file; what the
class does is the codec of `Proto.Codec`, over the fields as `layout` puts
them. A class holds its sub-messages by value, so `layout` finds the classes of
a file if and only if every message is declared before it is used
(`classes_isSome_iff`). The registry makes objects of these classes, by the ids
of the messages.
-/
import EsphomeApi.Proto.RoundTrip
import EsphomeApi.Protogen.Generator

namespace EsphomeApi.Protogen

/-! ## What is emitted -/

/-- `category_of`, with the scalars apart. -/
def FieldType.emitted : FieldType → Proto.FieldType
  | .double => .scalar .double
  | .float => .scalar .float
  | .int32 => .scalar .int32
  | .int64 => .scalar .int64
  | .uint32 => .scalar .uint32
  | .uint64 => .scalar .uint64
  | .sint32 => .scalar .sint32
  | .sint64 => .scalar .sint64
  | .fixed32 => .scalar .fixed32
  | .fixed64 => .scalar .fixed64
  | .sfixed32 => .scalar .sfixed32
  | .sfixed64 => .scalar .sfixed64
  | .bool => .scalar .bool
  | .string => .string
  | .bytes => .bytes
  | .enum => .scalar .enum
  | .message => .message

def ProtoField.emitted (f : ProtoField) : Proto.ProtoField where
  typeName := f.typeName
  type := f.type.emitted
  number := f.number.toNat
  repeated := f.repeated
  packedExplicit := f.packedExplicit
  packedValue := f.packedValue

def ProtoMessageDef.emitted (m : ProtoMessageDef) : Proto.ProtoMessageDef where
  name := m.name
  fields := m.fields.map ProtoField.emitted

/-- The classes of the header, as trees of members; a recursive message has
none. -/
def ProtoFile.classes (file : ProtoFile) : Option Proto.Classes :=
  Proto.layout [] (file.messages.map ProtoMessageDef.emitted)

theorem isPacked_emitted (f : ProtoField) : f.emitted.isPacked = isPacked f := by
  unfold Proto.ProtoField.isPacked isPacked ProtoField.emitted
  cases hrepeated : f.repeated with
  | false => cases f.type <;> rfl
  | true => cases f.type <;> rfl

/-- The wire type of a class's field is that of the file's. -/
theorem wireTypeOf_eq (f : ProtoField) : wireTypeOf f =
    match f.emitted.type with
    | .scalar s => s.wireType.toNat
    | _ => Proto.WireType.lengthDelimited.toNat := by
  unfold wireTypeOf ProtoField.emitted
  cases f.type <;> rfl

/-! ## Declared before it is used -/

section

variable {classes classes' : Proto.Classes}

theorem lookup_isSome_iff {name : CString} :
    (classes.lookup name).isSome = true ↔ name ∈ classes.map Prod.fst := by
  rw [List.lookup_isSome_iff, List.mem_map]
  constructor
  · rintro ⟨c, hc, hname⟩
    exact ⟨c, hc, (beq_iff_eq.mp hname).symm⟩
  · rintro ⟨c, hc, rfl⟩
    exact ⟨c, hc, beq_self_eq_true _⟩

theorem member_isSome_iff {f : Proto.ProtoField} : (f.member classes).isSome = true ↔
    (f.type = .message → f.typeName ∈ classes.map Prod.fst) := by
  unfold Proto.ProtoField.member
  split
  case h_4 htype => simp only [Option.isSome_map, lookup_isSome_iff, htype, forall_const]
  all_goals
    next htype => simp [htype]

theorem members_isSome_iff {fs : List Proto.ProtoField} :
    (Proto.members classes fs).isSome = true ↔
      ∀ f ∈ fs, f.type = .message → f.typeName ∈ classes.map Prod.fst := by
  induction fs with
  | nil => simp [Proto.members]
  | cons f fs ih =>
      rw [List.forall_mem_cons, ← ih, ← member_isSome_iff, Proto.members]
      cases f.member classes <;> cases Proto.members classes fs <;> simp

theorem layout_names {ms : List Proto.ProtoMessageDef}
    (h : Proto.layout classes ms = some classes') :
    classes'.map Prod.fst = classes.map Prod.fst ++ ms.map Proto.ProtoMessageDef.name := by
  induction ms generalizing classes with
  | nil =>
      obtain rfl := Option.some_inj.mp h
      simp
  | cons m ms ih =>
      unfold Proto.layout at h
      split at h
      · rw [ih h]
        simp
      · cases h

/-- Whatever a message holds is declared before it. -/
def DeclaredFirst : List CString → List Proto.ProtoMessageDef → Prop
  | _, [] => True
  | names, m :: ms => (∀ f ∈ m.fields, f.type = .message → f.typeName ∈ names) ∧
      DeclaredFirst (names ++ [m.name]) ms

theorem layout_isSome_iff {ms : List Proto.ProtoMessageDef} :
    (Proto.layout classes ms).isSome = true ↔ DeclaredFirst (classes.map Prod.fst) ms := by
  induction ms generalizing classes with
  | nil => simp [Proto.layout, DeclaredFirst]
  | cons m ms ih =>
      have hperm : m.sortedFields.Perm m.fields := List.perm_insertionSort ..
      have hmembers : (Proto.members classes m.sortedFields).isSome = true ↔
          ∀ f ∈ m.fields, f.type = .message → f.typeName ∈ classes.map Prod.fst := by
        simp only [members_isSome_iff, hperm.mem_iff]
      unfold Proto.layout DeclaredFirst
      rw [← hmembers]
      cases Proto.members classes m.sortedFields with
      | none => simp
      | some fields =>
          have hnext := @ih (classes ++ [(m.name, fields)])
          rw [List.map_append] at hnext
          simpa using hnext

end

/-- No message of the file holds itself or one that stands behind it. -/
def ProtoFile.DeclaredFirst (file : ProtoFile) : Prop :=
  Protogen.DeclaredFirst [] (file.messages.map ProtoMessageDef.emitted)

theorem classes_isSome_iff {file : ProtoFile} :
    file.classes.isSome = true ↔ file.DeclaredFirst := layout_isSome_iff

theorem classes_names {file : ProtoFile} {classes : Proto.Classes} (h : file.classes = some classes) :
    classes.map Prod.fst = file.messageNames := by
  rw [layout_names h, List.map_map]
  rfl

/-! ## The codec of a class -/

/-- The numbers of the fields are as the proto language has them; `protogen` does
not look at them. -/
def ProtoFile.NumbersOk (file : ProtoFile) : Prop := ∀ m ∈ file.messages, m.emitted.NumbersOk

theorem classes_wellFormed {file : ProtoFile} {classes : Proto.Classes}
    (h : file.classes = some classes) (hnumbers : file.NumbersOk) : ∀ c ∈ classes, c.2.WellFormed := by
  refine Proto.layout_wellFormed h (fun _ hc => nomatch hc) ?_
  intro m hm
  obtain ⟨m', hm', rfl⟩ := List.mem_map.mp hm
  exact hnumbers m' hm'

theorem protogen_registry {sort : List IdEntry → List IdEntry} (hsort : SortsById sort)
    {apiPath api optionsPath options : CString} {file : ProtoFile} {entries : List IdEntry}
    (hrun : protogen sort apiPath api optionsPath options = .ok (file, entries)) :
    IsRegistry file entries := by
  unfold protogen at hrun
  simp only [except_bind_eq_ok, thrown_eq_ok_iff] at hrun
  obtain ⟨_, -, _, -, file', -, entries', hids, heq⟩ := hrun
  cases heq
  have hentries := idEntries_outcome hsort file
  rw [hids] at hentries
  exact hentries.2

/-- The classes of a run are found if and only if each message is declared before
it is used. Then every id of the registry has a class, the object that
`create_message` makes for the id is one of it, and, if the numbers are fit for
tags, its codec reads what it wrote. -/
theorem generated_classes {sort : List IdEntry → List IdEntry} (hsort : SortsById sort)
    {apiPath api optionsPath options : CString} {file : ProtoFile} {entries : List IdEntry}
    (hrun : protogen sort apiPath api optionsPath options = .ok (file, entries)) :
    (file.classes.isSome = true ↔ file.DeclaredFirst) ∧
      ∀ classes, file.classes = some classes →
        classes.map Prod.fst = file.messageNames ∧
        ∀ id, registryContains entries id = true →
          ∃ name fields, createMessage entries id = some name ∧
            classes.lookup name = some fields ∧ (file.NumbersOk →
              ∀ v : fields.Value, fields.NoNegativeZero v → (fields.encode v).length < 2 ^ 64 →
                fields.decode (fields.encode v) fields.fresh = some v) := by
  have hregistry := protogen_registry hsort hrun
  refine ⟨classes_isSome_iff, fun classes hclasses => ⟨classes_names hclasses, fun id hid => ?_⟩⟩
  obtain ⟨m, hm, hne, rfl⟩ := (hregistry.contains id).mp hid
  have hname : m.name ∈ classes.map Prod.fst := by
    rw [classes_names hclasses]
    exact List.mem_map_of_mem hm
  obtain ⟨fields, hlookup⟩ := Option.isSome_iff_exists.mp (lookup_isSome_iff.mpr hname)
  refine ⟨m.name, fields, (hregistry.create _ _).mpr ⟨m, hm, hne, rfl, rfl⟩, hlookup, ?_⟩
  intro hnumbers v hnegative hsize
  obtain ⟨before, after, heq, -⟩ := List.lookup_eq_some_iff.mp hlookup
  have hwf := classes_wellFormed hclasses hnumbers (m.name, fields) (by rw [heq]; simp)
  exact Proto.Fields.decode_encode hwf hnegative hsize

/-- A field of a message with an id. -/
def sampleField : ProtoField where
  name := lit "k"
  typeName := lit "uint32"
  type := .uint32
  number := 1

theorem protogen_field : protogen insertById (lit "a.proto")
    (lit "message M {option (id)=1;uint32 k=1;}") (lit "b.proto") [] =
      .ok ({ messages := [{ name := lit "M", fields := [sampleField], id := 1 }] },
        [⟨lit "M", 1⟩]) := by
  decide +kernel

theorem generated_classes_field : ∃ name fields, createMessage [⟨lit "M", 1⟩] 1 = some name ∧
    [(lit "M", Proto.Fields.cons 1 (.scalar .uint32) .nil)].lookup name = some fields ∧
    ∀ v : fields.Value, fields.NoNegativeZero v → (fields.encode v).length < 2 ^ 64 →
      fields.decode (fields.encode v) fields.fresh = some v := by
  obtain ⟨name, fields, hcreate, hlookup, hcodec⟩ :=
    ((generated_classes sortsById_insertById protogen_field).2 _ rfl).2 1 rfl
  refine ⟨name, fields, hcreate, hlookup, hcodec fun m hm => ?_⟩
  obtain rfl := List.mem_singleton.mp hm
  exact ⟨by decide, by decide, by decide⟩

end EsphomeApi.Protogen
