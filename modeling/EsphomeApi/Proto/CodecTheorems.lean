/-
EsphomeApi.Proto.CodecTheorems — elements are read back as they were written,
`calculate_size` is the length of what `encode` writes, and every turn of the
decoding loops consumes input.
-/
import EsphomeApi.Proto.Codec
import EsphomeApi.Proto.WireTheorems

namespace EsphomeApi.Proto

open Library

/-! ## Elements -/

theorem setWidth_signExtend (v : BitVec 32) : (v.signExtend 64).setWidth 32 = v := by
  refine BitVec.eq_of_getLsbD_eq fun i hi => ?_
  rw [BitVec.getLsbD_setWidth, BitVec.getLsbD_signExtend]
  simp [hi, show i < 64 by omega]

theorem setWidth_setWidth_32 (v : BitVec 32) : (v.setWidth 64).setWidth 32 = v := by
  rw [BitVec.setWidth_setWidth_of_le _ (by decide), BitVec.setWidth_eq]

theorem zigzagDecode_zigzagEncode {w : Nat} (v : BitVec w) : zigzagDecode (zigzagEncode v) = v :=
  ZigZag.decode_encode v

/-- An element is read back as it was written, with what follows it left. -/
theorem readValue_writeValue (s : ScalarType) (v : s.Value) (rest : Bytes) :
    readValue s (writeValue s v ++ rest) = some (v, rest) := by
  have h32 : ∀ v : BitVec 32, readFixed32 (writeFixed32 v ++ rest) = some (v, rest) :=
    fun v => @readFixed_writeFixed 32 4 rfl v rest
  have h64 : ∀ v : BitVec 64, readFixed64 (writeFixed64 v ++ rest) = some (v, rest) :=
    fun v => @readFixed_writeFixed 64 8 rfl v rest
  cases s with
  | double => exact h64 v
  | fixed64 => exact h64 v
  | sfixed64 => exact h64 v
  | float => exact h32 v
  | fixed32 => exact h32 v
  | sfixed32 => exact h32 v
  | int64 => exact readVarint_writeVarint v rest
  | uint64 => exact readVarint_writeVarint v rest
  | int32 =>
      simp only [readValue, writeValue, readVarint_writeVarint, Option.map_some,
        setWidth_signExtend]
  | enum =>
      simp only [readValue, writeValue, readVarint_writeVarint, Option.map_some,
        setWidth_signExtend]
  | uint32 =>
      simp only [readValue, writeValue, readVarint_writeVarint, Option.map_some,
        setWidth_setWidth_32]
  | sint32 =>
      simp only [readValue, writeValue, readVarint_writeVarint, Option.map_some,
        setWidth_setWidth_32, zigzagDecode_zigzagEncode]
  | sint64 =>
      simp only [readValue, writeValue, readVarint_writeVarint, Option.map_some,
        zigzagDecode_zigzagEncode]
  | bool =>
      simp only [readValue, writeValue, readVarint_writeVarint, Option.map_some]
      cases v <;> rfl

/-- An element is made of a varint, or of a word of eight or four bytes. -/
theorem readValue_elim {s : ScalarType} {P : (Bytes → Option (s.Value × Bytes)) → Prop}
    (hvarint : ∀ f : BitVec 64 → s.Value,
      P fun bs => (readVarint bs).map fun out => (f out.1, out.2))
    (hfixed64 : ∀ f : BitVec 64 → s.Value,
      P fun bs => (readFixed64 bs).map fun out => (f out.1, out.2))
    (hfixed32 : ∀ f : BitVec 32 → s.Value,
      P fun bs => (readFixed32 bs).map fun out => (f out.1, out.2)) : P (readValue s) := by
  have hsame {α : Type} (read : Bytes → Option (α × Bytes)) :
      (fun bs => (read bs).map fun out => (out.1, out.2)) = read := by
    funext bs
    exact congrFun Option.map_id (read bs)
  cases s with
  | double => exact (congrArg P (hsame readFixed64)).mp (hfixed64 fun v => v)
  | fixed64 => exact (congrArg P (hsame readFixed64)).mp (hfixed64 fun v => v)
  | sfixed64 => exact (congrArg P (hsame readFixed64)).mp (hfixed64 fun v => v)
  | float => exact (congrArg P (hsame readFixed32)).mp (hfixed32 fun v => v)
  | fixed32 => exact (congrArg P (hsame readFixed32)).mp (hfixed32 fun v => v)
  | sfixed32 => exact (congrArg P (hsame readFixed32)).mp (hfixed32 fun v => v)
  | int64 => exact (congrArg P (hsame readVarint)).mp (hvarint fun v => v)
  | uint64 => exact (congrArg P (hsame readVarint)).mp (hvarint fun v => v)
  | int32 => exact hvarint fun v => v.setWidth 32
  | enum => exact hvarint fun v => v.setWidth 32
  | uint32 => exact hvarint fun v => v.setWidth 32
  | sint32 => exact hvarint fun v => zigzagDecode (v.setWidth 32)
  | sint64 => exact hvarint zigzagDecode
  | bool => exact hvarint fun v => v != 0#64

theorem map_length {α β : Type} {read : Bytes → Option (α × Bytes)}
    (hread : ∀ bs v rest, read bs = some (v, rest) → rest.length < bs.length) (f : α → β)
    (bs : Bytes) (v : β) (rest : Bytes)
    (h : ((read bs).map fun out => (f out.1, out.2)) = some (v, rest)) :
    rest.length < bs.length := by
  obtain ⟨⟨u, tail⟩, hout, heq⟩ := Option.map_eq_some_iff.mp h
  obtain ⟨-, rfl⟩ := Prod.mk.inj heq
  exact hread bs u tail hout

theorem readValue_length {s : ScalarType} {bs rest : Bytes} {v : s.Value}
    (h : readValue s bs = some (v, rest)) : rest.length < bs.length :=
  readValue_elim
    (P := fun read => ∀ bs v rest, read bs = some (v, rest) → rest.length < bs.length)
    (map_length fun _ _ _ => readVarint_length)
    (map_length fun _ _ _ => readFixed_length (by decide))
    (map_length fun _ _ _ => readFixed_length (by decide)) bs v rest h

theorem writeValue_ne_nil (s : ScalarType) (v : s.Value) : writeValue s v ≠ [] := by
  intro h
  have hread := readValue_writeValue s v []
  rw [h] at hread
  exact absurd (readValue_length hread) (Nat.lt_irrefl _)

theorem readElement_shrinks (s : ScalarType) : Shrinks (readElement s) := by
  intro bs vs rest vs' h
  obtain ⟨⟨v, tail⟩, hread, heq⟩ := Option.map_eq_some_iff.mp h
  rw [Prod.mk.injEq] at heq
  exact heq.1 ▸ readValue_length hread

/-! ## The loop of `decode` -/

theorem region_length {σ : Type} {f : Bytes × Bytes → Option (Bytes × σ)} {bs rest : Bytes} {v : σ}
    (h : (readLengthDelimited bs).bind f = some (rest, v))
    (hf : ∀ region tail, f (region, tail) = some (rest, v) → rest = tail) :
    rest.length < bs.length := by
  obtain ⟨⟨region, tail⟩, hread, hout⟩ := Option.bind_eq_some_iff.mp h
  have hlen := readLengthDelimited_length hread
  rw [hf region tail hout]
  omega

theorem fst_of_map_eq_some {σ τ : Type} {out : Option τ} {tail rest : Bytes} {f : τ → σ} {v : σ}
    (h : (out.map fun u => (tail, f u)) = some (rest, v)) : rest = tail := by
  obtain ⟨u, -, heq⟩ := Option.map_eq_some_iff.mp h
  exact (congrArg Prod.fst heq).symm

/-- A member's case reads at least one byte. -/
theorem Field.decode_length : ∀ {field : Field} {wt : WireType} {bs rest : Bytes}
    {v v' : field.Value}, field.decode wt bs v = some (rest, v') → rest.length < bs.length
  | .scalar s, _, _, _, _, _, h => by
      unfold Field.decode at h
      obtain ⟨⟨u, tail⟩, hread, heq⟩ := Option.map_eq_some_iff.mp h
      cases heq
      exact readValue_length hread
  | .repeatedScalar s packed, _, _, _, _, _, h => by
      unfold Field.decode at h
      split at h
      · exact region_length h fun _ _ hout => fst_of_map_eq_some (f := id) hout
      · exact readElement_shrinks s _ _ _ _ h
  | .blob, _, _, _, _, _, h => by
      unfold Field.decode at h
      obtain ⟨⟨region, tail⟩, hread, heq⟩ := Option.map_eq_some_iff.mp h
      cases heq
      exact Nat.lt_of_le_of_lt (Nat.le_add_left ..) (readLengthDelimited_length hread)
  | .repeatedBlob, _, _, _, _, _, h => by
      unfold Field.decode at h
      obtain ⟨⟨region, tail⟩, hread, heq⟩ := Option.map_eq_some_iff.mp h
      cases heq
      exact Nat.lt_of_le_of_lt (Nat.le_add_left ..) (readLengthDelimited_length hread)
  | .message fs, _, _, _, _, _, h => by
      unfold Field.decode at h
      exact region_length h fun _ _ hout => fst_of_map_eq_some (f := some) hout
  | .repeatedMessage fs, _, _, _, vs, _, h => by
      unfold Field.decode at h
      exact region_length h fun _ _ hout => fst_of_map_eq_some (f := fun u => vs ++ [u]) hout

/-- A class without members skips the field. -/
theorem Fields.record_nil_eq_some {key : Key} {bs rest : Bytes} {v w : Fields.nil.Value} :
    Fields.nil.record key bs v = some (rest, w) ↔ skipField key.wireType bs = some rest := by
  unfold Fields.record
  rw [Option.map_eq_some_iff]
  constructor
  · rintro ⟨tail, hskip, heq⟩
    rw [hskip, (Prod.mk.inj heq).1]
  · intro hskip
    exact ⟨rest, hskip, rfl⟩

/-- The `switch` runs the case of the first member, or goes on to the others;
the rest of the message stays. -/
theorem Fields.record_cons_eq_some {number : Nat} {field : Field} {fs : Fields} {key : Key}
    {bs rest : Bytes} {v w : (Fields.cons number field fs).Value} :
    (Fields.cons number field fs).record key bs v = some (rest, w) ↔
      key.fieldNumber = BitVec.ofNat 32 number ∧ w.2 = v.2 ∧
        field.decode key.wireType bs v.1 = some (rest, w.1) ∨
      key.fieldNumber ≠ BitVec.ofNat 32 number ∧ w.1 = v.1 ∧
        fs.record key bs v.2 = some (rest, w.2) := by
  obtain ⟨v, vs⟩ := v
  rw [Fields.record]
  by_cases hnumber : key.fieldNumber = BitVec.ofNat 32 number
  · rw [if_pos hnumber, Option.map_eq_some_iff, and_iff_right hnumber,
      or_iff_left fun h => h.1 hnumber]
    constructor
    · rintro ⟨⟨tail, u⟩, hread, heq⟩
      obtain ⟨rfl, rfl⟩ := Prod.mk.inj heq
      exact ⟨rfl, hread⟩
    · rintro ⟨hw, hread⟩
      exact ⟨_, hread, congrArg (Prod.mk rest) (Prod.ext rfl hw.symm)⟩
  · rw [if_neg hnumber, Option.map_eq_some_iff, and_iff_right hnumber,
      or_iff_right fun h => hnumber h.1]
    constructor
    · rintro ⟨⟨tail, u⟩, hread, heq⟩
      obtain ⟨rfl, rfl⟩ := Prod.mk.inj heq
      exact ⟨rfl, hread⟩
    · rintro ⟨hw, hread⟩
      exact ⟨_, hread, congrArg (Prod.mk rest) (Prod.ext hw.symm rfl)⟩

theorem Fields.record_length : ∀ {fs : Fields} {key : Key} {bs rest : Bytes} {v v' : fs.Value},
    fs.record key bs v = some (rest, v') → rest.length < bs.length
  | .nil, _, _, _, _, _, h => skipField_length (record_nil_eq_some.mp h)
  | .cons number field fs, _, _, _, _, _, h => by
      obtain ⟨-, -, hread⟩ | ⟨-, -, hread⟩ := record_cons_eq_some.mp h
      · exact Field.decode_length hread
      · exact record_length hread

theorem decodeStep_shrinks {σ : Type} {record : Key → Bytes → σ → Option (Bytes × σ)}
    (hrecord : ∀ key bs s rest s', record key bs s = some (rest, s') → rest.length ≤ bs.length) :
    Shrinks (decodeStep record) := by
  intro bs s rest s' h
  obtain ⟨⟨key, tail⟩, htag, hout⟩ := Option.bind_eq_some_iff.mp h
  exact Nat.lt_of_le_of_lt (hrecord key tail s rest s' hout) (readTag_length htag)

theorem Fields.step_shrinks (fs : Fields) : Shrinks (decodeStep fs.record) :=
  decodeStep_shrinks fun _ _ _ _ _ h => Nat.le_of_lt (Fields.record_length h)

/-! ## Sizes -/

theorem length_encode_congr {a b : Nat} (h : a / 8 = b / 8) :
    (Leb128.encode a).length = (Leb128.encode b).length := by
  rw [Leb128.encode_eq a, Leb128.encode_eq b]
  have hdiv : a / 128 = b / 128 := by omega
  by_cases ha : a < 128
  · rw [if_pos ha, if_pos (by omega)]
    rfl
  · rw [if_neg ha, if_neg (by omega), hdiv]
    rfl

/-- The wire type does not change the size of a tag. -/
theorem tagSize_eq (number : BitVec 32) (wt : WireType) :
    tagSize number = (writeTag number wt).length := by
  have htag := Key.wireNumber_tagWord number wt
  have hword := Key.wireNumber_tagWord number 0
  rw [tagSize, varintSize_eq, writeTag, writeVarint_eq, writeVarint_eq]
  refine length_encode_congr ?_
  have hzero : number.setWidth 64 <<< 3 = tagWord number 0 := by
    simp [tagWord]
  rw [hzero]
  rw [Key.wireNumber, BitVec.toNat_ushiftRight, Nat.shiftRight_eq_div_pow] at htag hword
  exact hword.trans htag.symm

theorem valueSize_eq (s : ScalarType) (v : s.Value) : valueSize s v = (writeValue s v).length := by
  cases s <;> first | exact varintSize_eq _ | exact (length_writeFixed _ _).symm

theorem packedSize_eq (s : ScalarType) (vs : List s.Value) :
    packedSize s vs = (vs.flatMap (writeValue s)).length := by
  rw [packedSize, List.length_flatMap]
  exact congrArg List.sum (List.map_congr_left fun v _ => valueSize_eq s v)

mutual

theorem Field.size_eq (number : BitVec 32) : ∀ (field : Field) (v : field.Value),
    field.size number v = (field.encode number v).length
  | .scalar s, v => by
      unfold Field.size Field.encode
      split
      · rw [List.length_append, tagSize_eq number s.wireType, valueSize_eq]
      · rfl
  | .repeatedScalar s true, vs => by
      unfold Field.size Field.encode
      split
      · rfl
      · rw [List.length_append, List.length_append, tagSize_eq number .lengthDelimited,
          varintSize_eq, packedSize_eq]
  | .repeatedScalar s false, vs => by
      unfold Field.size Field.encode
      rw [List.length_flatMap]
      refine congrArg List.sum (List.map_congr_left fun v _ => ?_)
      rw [List.length_append, tagSize_eq number s.wireType, valueSize_eq]
  | .blob, v => by
      unfold Field.size Field.encode
      split
      · rfl
      · rw [List.length_append, writeLengthDelimited, List.length_append,
          tagSize_eq number .lengthDelimited, varintSize_eq]
  | .repeatedBlob, vs => by
      unfold Field.size Field.encode
      rw [List.length_flatMap]
      refine congrArg List.sum (List.map_congr_left fun v _ => ?_)
      rw [List.length_append, writeLengthDelimited, List.length_append,
        tagSize_eq number .lengthDelimited, varintSize_eq, Nat.add_assoc]
  | .message fs, none => rfl
  | .message fs, some v => by
      unfold Field.size Field.encode
      simp only [Option.elim_some, List.length_append]
      rw [fs.calculateSize_eq v, tagSize_eq number .lengthDelimited, varintSize_eq]
  | .repeatedMessage fs, vs => by
      unfold Field.size Field.encode
      rw [List.length_flatMap]
      refine congrArg List.sum (List.map_congr_left fun v _ => ?_)
      rw [List.length_append, List.length_append, fs.calculateSize_eq v,
        tagSize_eq number .lengthDelimited, varintSize_eq]

/-- `calculate_size` is the number of bytes that `encode` writes. -/
theorem Fields.calculateSize_eq : ∀ (fs : Fields) (v : fs.Value),
    fs.calculateSize v = (fs.encode v).length
  | .nil, _ => rfl
  | .cons number field rest, (v, vs) => by
      unfold Fields.calculateSize Fields.encode
      rw [List.length_append, field.size_eq, rest.calculateSize_eq]

end

end EsphomeApi.Proto
