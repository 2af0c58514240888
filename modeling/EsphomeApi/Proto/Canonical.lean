/-
EsphomeApi.Proto.Canonical — what is read back of any message.

A negative floating-point zero is not written and so is read back as zero; all
other values are read back as they are. `canonical` is a message without the
sign of its zeros: it is encoded alike (`Fields.encode_canonical`), and it is
what a fresh message decodes the bytes to (`Fields.decode_encode_canonical`).
-/
import EsphomeApi.Proto.RoundTrip

namespace EsphomeApi.Proto

/-- Zero, for a negative floating-point zero. -/
def ScalarType.canonical : (s : ScalarType) → s.Value → s.Value
  | .double, v => if v = 0x8000000000000000#64 then 0#64 else v
  | .float, v => if v = 0x80000000#32 then 0#32 else v
  | .int32, v => v
  | .int64, v => v
  | .uint32, v => v
  | .uint64, v => v
  | .sint32, v => v
  | .sint64, v => v
  | .fixed32, v => v
  | .fixed64, v => v
  | .sfixed32, v => v
  | .sfixed64, v => v
  | .bool, v => v
  | .enum, v => v

mutual

/-- A member without the sign of its zeros, at every level. -/
def Field.canonical : (field : Field) → field.Value → field.Value
  | .scalar s, v => s.canonical v
  | .repeatedScalar _ _, vs => vs
  | .blob, v => v
  | .repeatedBlob, vs => vs
  | .message fs, v => Option.map (fun w => fs.canonical w) v
  | .repeatedMessage fs, vs => List.map (fun w => fs.canonical w) vs

def Fields.canonical : (fs : Fields) → fs.Value → fs.Value
  | .nil, v => v
  | .cons _ field rest, (v, vs) => (field.canonical v, rest.canonical vs)

end

theorem not_negativeZero_canonical (s : ScalarType) (v : s.Value) :
    ¬ s.NegativeZero (s.canonical v) := by
  cases s with
  | double =>
      show ¬ (if v = 0x8000000000000000#64 then 0#64 else v) = 0x8000000000000000#64
      split
      · decide
      · assumption
  | float =>
      show ¬ (if v = 0x80000000#32 then 0#32 else v) = 0x80000000#32
      split
      · decide
      · assumption
  | _ => exact id

/-- A zero is not written, with a sign or without. -/
theorem encode_scalar_canonical (number : BitVec 32) (s : ScalarType) (v : s.Value) :
    (Field.scalar s).encode number (s.canonical v) = (Field.scalar s).encode number v := by
  cases s with
  | double =>
      by_cases hv : v = 0x8000000000000000#64
      · subst hv
        rfl
      · rw [show ScalarType.double.canonical v = v from if_neg hv]
  | float =>
      by_cases hv : v = 0x80000000#32
      · subst hv
        rfl
      · rw [show ScalarType.float.canonical v = v from if_neg hv]
  | _ => rfl

mutual

theorem Field.noNegativeZero_canonical : ∀ (field : Field) (v : field.Value),
    field.NoNegativeZero (field.canonical v)
  | .scalar s, v => by
      unfold Field.canonical Field.NoNegativeZero
      exact not_negativeZero_canonical s v
  | .repeatedScalar _ _, _ => by unfold Field.NoNegativeZero; trivial
  | .blob, _ => by unfold Field.NoNegativeZero; trivial
  | .repeatedBlob, _ => by unfold Field.NoNegativeZero; trivial
  | .message fs, v => by
      unfold Field.canonical Field.NoNegativeZero
      intro w hw
      obtain ⟨u, -, rfl⟩ := Option.map_eq_some_iff.mp hw
      exact Fields.noNegativeZero_canonical fs u
  | .repeatedMessage fs, vs => by
      unfold Field.canonical Field.NoNegativeZero
      intro w hw
      obtain ⟨u, -, rfl⟩ := List.mem_map.mp hw
      exact Fields.noNegativeZero_canonical fs u

theorem Fields.noNegativeZero_canonical : ∀ (fs : Fields) (v : fs.Value),
    fs.NoNegativeZero (fs.canonical v)
  | .nil, _ => by unfold Fields.NoNegativeZero; trivial
  | .cons _ field rest, (v, vs) => by
      unfold Fields.canonical Fields.NoNegativeZero
      exact ⟨Field.noNegativeZero_canonical field v, Fields.noNegativeZero_canonical rest vs⟩

end

mutual

theorem Field.encode_canonical (number : BitVec 32) : ∀ (field : Field) (v : field.Value),
    field.encode number (field.canonical v) = field.encode number v
  | .scalar s, v => by
      unfold Field.canonical
      exact encode_scalar_canonical number s v
  | .repeatedScalar _ _, _ => by unfold Field.canonical; rfl
  | .blob, _ => by unfold Field.canonical; rfl
  | .repeatedBlob, _ => by unfold Field.canonical; rfl
  | .message fs, v => by
      unfold Field.canonical Field.encode
      cases v with
      | none => rfl
      | some w =>
          have hencode := Fields.encode_canonical fs w
          have hsize : fs.calculateSize (fs.canonical w) = fs.calculateSize w := by
            rw [fs.calculateSize_eq, fs.calculateSize_eq, hencode]
          simp only [Option.map_some, Option.elim_some, hencode, hsize]
  | .repeatedMessage fs, vs => by
      unfold Field.canonical Field.encode
      rw [List.flatMap_map]
      refine List.flatMap_congr fun w _ => ?_
      have hencode := Fields.encode_canonical fs w
      have hsize : fs.calculateSize (fs.canonical w) = fs.calculateSize w := by
        rw [fs.calculateSize_eq, fs.calculateSize_eq, hencode]
      rw [hencode, hsize]

theorem Fields.encode_canonical : ∀ (fs : Fields) (v : fs.Value),
    fs.encode (fs.canonical v) = fs.encode v
  | .nil, _ => rfl
  | .cons number field rest, (v, vs) => by
      unfold Fields.canonical Fields.encode
      rw [Field.encode_canonical (BitVec.ofNat 32 number) field v, Fields.encode_canonical rest vs]

end

/-- The bytes of any message are decoded to its canonical form. -/
theorem Fields.decode_encode_canonical {fs : Fields} (v : fs.Value) (hwf : fs.WellFormed)
    (hsize : (fs.encode v).length < 2 ^ 64) :
    fs.decode (fs.encode v) fs.fresh = some (fs.canonical v) := by
  have hencode := fs.encode_canonical v
  rw [← hencode] at hsize ⊢
  exact decode_encode hwf (fs.noNegativeZero_canonical v) hsize

/-! ## Members of 32 bits -/

/-- What a singular `fixed32` or `uint32` member holds. -/
def Field.word : (field : Field) → field.Value → Option (BitVec 32)
  | .scalar .fixed32, v => some v
  | .scalar .uint32, v => some v
  | _, _ => none

/-- What the member of a number holds, if it is a `fixed32` or a `uint32`. -/
def Fields.word (number : Nat) : (fs : Fields) → fs.Value → Option (BitVec 32)
  | .nil, _ => none
  | .cons n field rest, (v, vs) => if n = number then field.word v else rest.word number vs

theorem Field.word_canonical (field : Field) (v : field.Value) :
    field.word (field.canonical v) = field.word v := by
  cases field with
  | scalar s => cases s <;> rfl
  | _ => rfl

/-- An integer is read back as it is. -/
theorem Fields.word_canonical (number : Nat) : ∀ (fs : Fields) (v : fs.Value),
    fs.word number (fs.canonical v) = fs.word number v
  | .nil, _ => rfl
  | .cons n field rest, (v, vs) => by
      unfold Fields.canonical Fields.word
      rw [Field.word_canonical field v, Fields.word_canonical number rest vs]

end EsphomeApi.Proto
