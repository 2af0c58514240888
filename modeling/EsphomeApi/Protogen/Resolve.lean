/-
EsphomeApi.Protogen.Resolve — `resolve_types`, and the registry of message ids
that `emit_registry` generates.

`Resolves` says what a field means among the declarations of a file; the pass
finds exactly that, or stops at the first field that means nothing
(`resolveTypes_eq_ok_iff`, `resolveTypes_eq_error_iff`). The result names
declarations only (`Closed`), and resolving it again changes nothing.
-/
import EsphomeApi.Library.CheckedMap
import EsphomeApi.Protogen.Parser

namespace EsphomeApi.Protogen

open Library

/-! ## Names -/

/-- `kScalarTypes`. -/
def scalarTypes : List CString :=
  [lit "double", lit "float", lit "int32", lit "int64", lit "uint32", lit "uint64", lit "sint32",
    lit "sint64", lit "fixed32", lit "fixed64", lit "sfixed32", lit "sfixed64", lit "bool",
    lit "string", lit "bytes"]

def isScalarType (t : CString) : Bool := scalarTypes.any (t = ·)

def scalarFieldType (t : CString) : FieldType :=
  if t = lit "double" then .double
  else if t = lit "float" then .float
  else if t = lit "int32" then .int32
  else if t = lit "int64" then .int64
  else if t = lit "uint32" then .uint32
  else if t = lit "uint64" then .uint64
  else if t = lit "sint32" then .sint32
  else if t = lit "sint64" then .sint64
  else if t = lit "fixed32" then .fixed32
  else if t = lit "fixed64" then .fixed64
  else if t = lit "sfixed32" then .sfixed32
  else if t = lit "sfixed64" then .sfixed64
  else if t = lit "bool" then .bool
  else if t = lit "string" then .string
  else .bytes

/-- What is behind the last dot, or the whole text. -/
def afterLastDot (t : CString) : CString := (t.reverse.takeWhile (· ≠ dot)).reverse

/-- `simple_name`. -/
def simpleName (raw : CString) : CString :=
  let t := if raw.head? = some dot then raw.tail else raw
  afterLastDot t

def ProtoFile.enumNames (file : ProtoFile) : List CString := file.enums.map ProtoEnum.name

def ProtoFile.messageNames (file : ProtoFile) : List CString :=
  file.messages.map ProtoMessageDef.name

/-! ## `resolve_types` -/

def unknownType (m : ProtoMessageDef) (f : ProtoField) : RuntimeError :=
  ⟨lit "unknown field type '" ++ f.typeName ++ lit "' in message " ++ m.name ++ lit " field " ++
    f.name⟩

/-- The body of the inner loop of `resolve_types`. -/
def resolveField (enums messages : List CString) (m : ProtoMessageDef) (f : ProtoField) :
    Except RuntimeError ProtoField :=
  if isScalarType f.typeName then .ok { f with type := scalarFieldType f.typeName }
  else
    let name := simpleName f.typeName
    if name ∈ enums then .ok { f with type := .enum, typeName := name }
    else if name ∈ messages then .ok { f with type := .message, typeName := name }
    else .error (unknownType m f)

def resolveMessage (enums messages : List CString) (m : ProtoMessageDef) :
    Except RuntimeError ProtoMessageDef := do
  let fields ← m.fields.mapM (resolveField enums messages m)
  pure { m with fields }

def resolveTypes (file : ProtoFile) : Except RuntimeError ProtoFile := do
  let messages ← file.messages.mapM (resolveMessage file.enumNames file.messageNames)
  pure { file with messages }

/-- `wire_type_of`. -/
def wireTypeOf (f : ProtoField) : Nat :=
  match f.type with
  | .double | .fixed64 | .sfixed64 => 1
  | .float | .fixed32 | .sfixed32 => 5
  | .string | .bytes | .message => 2
  | _ => 0

def isPacked (f : ProtoField) : Bool :=
  if !f.repeated then false
  else if f.type = .string ∨ f.type = .bytes ∨ f.type = .message then false
  else if f.packedExplicit then f.packedValue
  else true

/-! ## Names -/

theorem isScalarType_iff {t : CString} : isScalarType t = true ↔ t ∈ scalarTypes := by
  simp [isScalarType]

/-- The leading dot makes no difference. -/
theorem simpleName_eq (raw : CString) : simpleName raw = afterLastDot raw := by
  unfold simpleName
  split
  · next h =>
      obtain ⟨rest, rfl⟩ := List.head?_eq_some_iff.mp h
      change afterLastDot rest = afterLastDot (dot :: rest)
      unfold afterLastDot
      rw [List.reverse_cons, List.takeWhile_append]
      split
      · next hlen =>
          have hall := List.Sublist.eq_of_length (List.takeWhile_sublist _) hlen
          rw [hall]
          simp
      · rfl
  · rfl

theorem dot_notMem_afterLastDot (t : CString) : dot ∉ afterLastDot t := by
  intro h
  have hmem := List.mem_takeWhile_imp (List.mem_reverse.mp h)
  simp at hmem

theorem afterLastDot_of_notMem {t : CString} (h : dot ∉ t) : afterLastDot t = t := by
  have hall : t.reverse.takeWhile (· ≠ dot) = t.reverse := by
    rw [List.takeWhile_eq_self_iff]
    intro c hc
    exact decide_eq_true fun heq => h (heq ▸ List.mem_reverse.mp hc)
  rw [afterLastDot, hall, List.reverse_reverse]

/-- What is behind the last dot of a name is the name itself, with a path of
packages before it or none. -/
theorem afterLastDot_append (path : CString) {t : CString} (h : dot ∉ t) :
    afterLastDot (path ++ dot :: t) = t := by
  have hall : ∀ c ∈ t.reverse, decide (c ≠ dot) = true := fun c hc =>
    decide_eq_true fun heq => h (heq ▸ List.mem_reverse.mp hc)
  rw [afterLastDot, List.reverse_append, List.reverse_cons, List.append_assoc,
    List.takeWhile_append_of_pos hall]
  simp

/-! ## What a field means -/

/-- A field among the declarations of a file, and what it resolves to. An enum
comes before a message of the same name. -/
inductive Resolves (enums messages : List CString) (f : ProtoField) : ProtoField → Prop where
  | scalar (h : f.typeName ∈ scalarTypes) :
      Resolves enums messages f { f with type := scalarFieldType f.typeName }
  | enum {name : CString} (h : f.typeName ∉ scalarTypes) (hname : afterLastDot f.typeName = name)
      (henum : name ∈ enums) :
      Resolves enums messages f { f with type := .enum, typeName := name }
  | message {name : CString} (h : f.typeName ∉ scalarTypes)
      (hname : afterLastDot f.typeName = name) (henum : name ∉ enums) (hmessage : name ∈ messages) :
      Resolves enums messages f { f with type := .message, typeName := name }

/-- A type name that means something. -/
def Known (enums messages : List CString) (typeName : CString) : Prop :=
  typeName ∈ scalarTypes ∨ afterLastDot typeName ∈ enums ∨ afterLastDot typeName ∈ messages

section

variable {enums messages : List CString} {m m' : ProtoMessageDef} {f f' : ProtoField}
  {e : RuntimeError}

theorem resolveField_eq : resolveField enums messages m f =
    if isScalarType f.typeName then .ok { f with type := scalarFieldType f.typeName }
    else if afterLastDot f.typeName ∈ enums then
      .ok { f with type := .enum, typeName := afterLastDot f.typeName }
    else if afterLastDot f.typeName ∈ messages then
      .ok { f with type := .message, typeName := afterLastDot f.typeName }
    else .error (unknownType m f) := by
  unfold resolveField
  rw [simpleName_eq]

theorem resolveField_eq_ok_iff :
    resolveField enums messages m f = .ok f' ↔ Resolves enums messages f f' := by
  rw [resolveField_eq]
  constructor
  · intro h
    split at h
    · next hscalar =>
        obtain rfl := Except.ok.inj h
        exact .scalar (isScalarType_iff.mp hscalar)
    next hscalar =>
    rw [isScalarType_iff] at hscalar
    split at h
    · next henum =>
        obtain rfl := Except.ok.inj h
        exact .enum hscalar rfl henum
    next henum =>
    split at h
    · next hmessage =>
        obtain rfl := Except.ok.inj h
        exact .message hscalar rfl henum hmessage
    · cases h
  · intro h
    cases h with
    | scalar h => rw [if_pos (isScalarType_iff.mpr h)]
    | enum h hname henum =>
        subst hname
        rw [if_neg (mt isScalarType_iff.mp h), if_pos henum]
    | message h hname henum hmessage =>
        subst hname
        rw [if_neg (mt isScalarType_iff.mp h), if_neg henum, if_pos hmessage]

theorem resolveField_eq_error_iff :
    resolveField enums messages m f = .error e ↔
      ¬ Known enums messages f.typeName ∧ e = unknownType m f := by
  rw [resolveField_eq, Known, ← isScalarType_iff]
  split
  · next h => simp [h]
  next h =>
  split
  · next henum => simp [henum]
  next henum =>
  split
  · next hmessage => simp [hmessage]
  next hmessage =>
  simp [h, henum, hmessage, eq_comm]

theorem exists_resolveField_eq_ok :
    (∃ f', resolveField enums messages m f = .ok f') ↔ Known enums messages f.typeName := by
  cases h : resolveField enums messages m f with
  | error e =>
      have hno := (resolveField_eq_error_iff.mp h).1
      exact iff_of_false nofun hno
  | ok f' =>
      refine iff_of_true ⟨f', rfl⟩ ?_
      by_contra hno
      rw [resolveField_eq_error_iff.mpr ⟨hno, rfl⟩] at h
      cases h

/-! ## What a file means -/

/-- A file among its own declarations: nothing but the types of the fields
changes. -/
structure ProtoFile.ResolvesTo (file file' : ProtoFile) : Prop where
  package : file'.package = file.package
  enums : file'.enums = file.enums
  messages : List.Forall₂ (fun m m' => ∃ fields,
    List.Forall₂ (Resolves file.enumNames file.messageNames) m.fields fields ∧
      m' = { m with fields }) file.messages file'.messages

theorem resolveMessage_eq_ok_iff :
    resolveMessage enums messages m = .ok m' ↔
      ∃ fields, List.Forall₂ (Resolves enums messages) m.fields fields ∧ m' = { m with fields } := by
  have hfields : ∀ fields, m.fields.mapM (resolveField enums messages m) = .ok fields ↔
      List.Forall₂ (Resolves enums messages) m.fields fields := fun fields => by
    simp only [mapM_eq_ok_iff, resolveField_eq_ok_iff]
  unfold resolveMessage
  cases h : m.fields.mapM (resolveField enums messages m) with
  | error e =>
      refine iff_of_false nofun ?_
      rintro ⟨fields, hresolves, -⟩
      rw [(hfields fields).mpr hresolves] at h
      cases h
  | ok fields =>
      have hresolves := (hfields fields).mp h
      constructor
      · intro heq
        exact ⟨fields, hresolves, (Except.ok.inj heq).symm⟩
      · rintro ⟨fields', hresolves', rfl⟩
        obtain rfl := Except.ok.inj (h.symm.trans ((hfields fields').mpr hresolves'))
        rfl

theorem exists_resolveMessage_eq_ok : (∃ m', resolveMessage enums messages m = .ok m') ↔
    ∀ f ∈ m.fields, Known enums messages f.typeName := by
  simp only [← exists_resolveField_eq_ok (m := m), ← exists_mapM_eq_ok]
  unfold resolveMessage
  cases m.fields.mapM (resolveField enums messages m) with
  | error e => exact iff_of_false nofun nofun
  | ok fields => exact iff_of_true ⟨_, rfl⟩ ⟨fields, rfl⟩

theorem resolveMessage_eq_error_iff : resolveMessage enums messages m = .error e ↔
    ∃ before f after, m.fields = before ++ f :: after ∧
      (∀ f ∈ before, Known enums messages f.typeName) ∧
      ¬ Known enums messages f.typeName ∧ e = unknownType m f := by
  have hfields : m.fields.mapM (resolveField enums messages m) = .error e ↔ _ := mapM_eq_error_iff
  simp only [exists_resolveField_eq_ok, resolveField_eq_error_iff] at hfields
  rw [← hfields]
  unfold resolveMessage
  cases m.fields.mapM (resolveField enums messages m) with
  | error e' =>
      constructor
      all_goals
        intro h
        obtain rfl := Except.error.inj h
        rfl
  | ok fields => exact iff_of_false nofun nofun

variable {file file' : ProtoFile}

theorem resolveTypes_eq_ok_iff : resolveTypes file = .ok file' ↔ file.ResolvesTo file' := by
  have hmessages : ∀ messages,
      file.messages.mapM (resolveMessage file.enumNames file.messageNames) = .ok messages ↔
        List.Forall₂ (fun m m' => ∃ fields,
          List.Forall₂ (Resolves file.enumNames file.messageNames) m.fields fields ∧
            m' = { m with fields }) file.messages messages := fun messages => by
    simp only [mapM_eq_ok_iff, resolveMessage_eq_ok_iff]
  unfold resolveTypes
  cases h : file.messages.mapM (resolveMessage file.enumNames file.messageNames) with
  | error e =>
      refine iff_of_false nofun fun hfile => ?_
      rw [(hmessages _).mpr hfile.messages] at h
      cases h
  | ok messages =>
      have hresolves := (hmessages messages).mp h
      constructor
      · intro heq
        obtain rfl := Except.ok.inj heq
        exact ⟨rfl, rfl, hresolves⟩
      · intro hfile
        obtain rfl := Except.ok.inj (h.symm.trans ((hmessages _).mpr hfile.messages))
        obtain ⟨hpackage, henums, -⟩ := hfile
        cases file'
        cases hpackage
        cases henums
        rfl

/-- The error is about the first field whose type is not known. -/
theorem resolveTypes_eq_error_iff : resolveTypes file = .error e ↔
    ∃ before m after, file.messages = before ++ m :: after ∧
      (∀ m ∈ before, ∀ f ∈ m.fields, Known file.enumNames file.messageNames f.typeName) ∧
      ∃ before f after, m.fields = before ++ f :: after ∧
        (∀ f ∈ before, Known file.enumNames file.messageNames f.typeName) ∧
        ¬ Known file.enumNames file.messageNames f.typeName ∧ e = unknownType m f := by
  have hmessages : file.messages.mapM (resolveMessage file.enumNames file.messageNames) = .error e ↔
      _ := mapM_eq_error_iff
  simp only [exists_resolveMessage_eq_ok, resolveMessage_eq_error_iff] at hmessages
  rw [← hmessages]
  unfold resolveTypes
  cases file.messages.mapM (resolveMessage file.enumNames file.messageNames) with
  | error e' =>
      constructor
      all_goals
        intro h
        obtain rfl := Except.error.inj h
        rfl
  | ok messages => exact iff_of_false nofun nofun

/-! ## Resolved files -/

/-- The type of a field is that of its name. -/
def ProtoField.Settled (enums messages : List CString) (f : ProtoField) : Prop :=
  match f.type with
  | .enum => f.typeName ∈ enums
  | .message => f.typeName ∈ messages
  | type => f.typeName ∈ scalarTypes ∧ scalarFieldType f.typeName = type

/-- Every type name of the file is a scalar or the name of a declaration. -/
def ProtoFile.Closed (file : ProtoFile) : Prop :=
  ∀ m ∈ file.messages, ∀ f ∈ m.fields, f.Settled file.enumNames file.messageNames

/-- No declaration has the name of a scalar type. -/
def ProtoFile.NoScalarNames (file : ProtoFile) : Prop :=
  ∀ name ∈ scalarTypes, name ∉ file.enumNames ∧ name ∉ file.messageNames

/-- A scalar type is neither an enum nor a message. -/
theorem scalarFieldType_ne {type : FieldType} (h : type = .enum ∨ type = .message)
    (t : CString) : scalarFieldType t ≠ type := by
  have hite : ∀ (c : Prop) [Decidable c] (a b : FieldType), a ≠ type → b ≠ type →
      (if c then a else b) ≠ type := fun c _ a b ha hb => by
    by_cases hc : c
    · rwa [if_pos hc]
    · rwa [if_neg hc]
  unfold scalarFieldType
  rcases h with rfl | rfl
  all_goals repeat' apply hite
  all_goals exact nofun

theorem Resolves.settled (h : Resolves enums messages f f') : f'.Settled enums messages := by
  cases h with
  | scalar h =>
      unfold ProtoField.Settled
      split
      · next heq => exact absurd heq (scalarFieldType_ne (.inl rfl) _)
      · next heq => exact absurd heq (scalarFieldType_ne (.inr rfl) _)
      · exact ⟨h, rfl⟩
  | enum _ _ henum => exact henum
  | message _ _ _ hmessage => exact hmessage

/-- A name that a field resolves to resolves to itself. -/
theorem Resolves.again (h : Resolves enums messages f f')
    (hscalar : ∀ name ∈ scalarTypes, name ∉ enums ∧ name ∉ messages) :
    Resolves enums messages f' f' := by
  cases h with
  | scalar h => exact .scalar h
  | enum h hname henum =>
      have hself := afterLastDot_of_notMem (hname ▸ dot_notMem_afterLastDot f.typeName)
      exact .enum (fun hkeyword => (hscalar _ hkeyword).1 henum) hself henum
  | message h hname henum hmessage =>
      have hself := afterLastDot_of_notMem (hname ▸ dot_notMem_afterLastDot f.typeName)
      exact .message (fun hkeyword => (hscalar _ hkeyword).2 hmessage) hself henum hmessage

theorem ProtoFile.ResolvesTo.names (h : file.ResolvesTo file') :
    file'.enumNames = file.enumNames ∧ file'.messageNames = file.messageNames := by
  refine ⟨by rw [enumNames, h.enums, enumNames], ?_⟩
  unfold ProtoFile.messageNames
  refine List.forall₂_eq_eq_eq ▸ ?_
  rw [List.forall₂_map_left_iff, List.forall₂_map_right_iff]
  refine (h.messages.flip).imp ?_
  rintro m' m ⟨fields, -, rfl⟩
  rfl

/-- Everything that a field of the result is the result of. -/
theorem ProtoFile.ResolvesTo.exists_field (h : file.ResolvesTo file') :
    ∀ m' ∈ file'.messages, ∀ f' ∈ m'.fields,
      ∃ f, Resolves file.enumNames file.messageNames f f' := by
  intro m' hm' f' hf'
  obtain ⟨i, hi, rfl⟩ := List.mem_iff_getElem.mp hm'
  obtain ⟨fields, hfields, heq⟩ := h.messages.get (h.messages.length_eq ▸ hi) hi
  rw [List.get_eq_getElem, List.get_eq_getElem] at heq
  rw [heq] at hf'
  obtain ⟨j, hj, rfl⟩ := List.mem_iff_getElem.mp hf'
  exact ⟨_, hfields.get (hfields.length_eq ▸ hj) hj⟩

theorem ProtoFile.ResolvesTo.closed (h : file.ResolvesTo file') : file'.Closed := by
  intro m' hm' f' hf'
  obtain ⟨f, hf⟩ := h.exists_field m' hm' f' hf'
  rw [h.names.1, h.names.2]
  exact hf.settled

theorem ProtoFile.ResolvesTo.again (h : file.ResolvesTo file') (hscalar : file.NoScalarNames) :
    file'.ResolvesTo file' := by
  refine ⟨rfl, rfl, ?_⟩
  rw [List.forall₂_same]
  intro m' hm'
  refine ⟨m'.fields, ?_, rfl⟩
  rw [List.forall₂_same]
  intro f' hf'
  obtain ⟨f, hf⟩ := h.exists_field m' hm' f' hf'
  rw [h.names.1, h.names.2]
  exact hf.again hscalar

/-- The pass finds what the fields mean, or names the first that means nothing;
what it finds is closed, and the pass leaves it as it is unless a declaration
has the name of a scalar type. -/
theorem resolve_exact (file : ProtoFile) :
    (∀ file', resolveTypes file = .ok file' ↔ file.ResolvesTo file') ∧
      (∀ e, resolveTypes file = .error e ↔
        ∃ before m after, file.messages = before ++ m :: after ∧
          (∀ m ∈ before, ∀ f ∈ m.fields, Known file.enumNames file.messageNames f.typeName) ∧
          ∃ before f after, m.fields = before ++ f :: after ∧
            (∀ f ∈ before, Known file.enumNames file.messageNames f.typeName) ∧
            ¬ Known file.enumNames file.messageNames f.typeName ∧ e = unknownType m f) ∧
      ∀ file', resolveTypes file = .ok file' →
        file'.Closed ∧ (file.NoScalarNames → resolveTypes file' = .ok file') := by
  refine ⟨fun _ => resolveTypes_eq_ok_iff, fun _ => resolveTypes_eq_error_iff, fun file' h => ?_⟩
  have hresolves := resolveTypes_eq_ok_iff.mp h
  exact ⟨hresolves.closed, fun hscalar => resolveTypes_eq_ok_iff.mpr (hresolves.again hscalar)⟩

end

end EsphomeApi.Protogen
