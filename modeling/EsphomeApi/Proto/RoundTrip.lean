/-
EsphomeApi.Proto.RoundTrip — a message that `encode` wrote is decoded into the
same message.

How the proof goes. What `encode` writes for a member is a chain of records,
each of which the member's case of `decode` reads whatever follows it
(`Chain`). The recursion is over the schema: a member's chain runs inside the
class of the member, where the other members stay as they are (`Chain.map`),
and the chain of a class is the chain of its first member followed by that of
the others, whose records have other numbers. A sub-message is one record
whose region is a chain of the smaller class.
-/
import EsphomeApi.Proto.CodecTheorems

namespace EsphomeApi.Proto

open Library

/-! ## Values that are not written -/

/-- The floating-point zero with a sign, which `nondefault_cond` takes for the
default. -/
def ScalarType.NegativeZero : (s : ScalarType) → s.Value → Prop
  | .double, v => v = 0x8000000000000000#64
  | .float, v => v = 0x80000000#32
  | _, _ => False

mutual

/-- No singular `float` or `double`, at any level, holds negative zero. -/
def Field.NoNegativeZero : (field : Field) → field.Value → Prop
  | .scalar s, v => ¬ s.NegativeZero v
  | .message fs, v => ∀ w, v = some w → fs.NoNegativeZero w
  | .repeatedMessage fs, vs => ∀ w : fs.Value, List.Mem w vs → fs.NoNegativeZero w
  | _, _ => True

def Fields.NoNegativeZero : (fs : Fields) → fs.Value → Prop
  | .nil, _ => True
  | .cons _ field rest, (v, vs) => field.NoNegativeZero v ∧ rest.NoNegativeZero vs

end

theorem eq_zero_of_not_nondefault : ∀ {s : ScalarType} {v : s.Value},
    nondefault s v = false → ¬ s.NegativeZero v → v = s.zero := by
  intro s v h hnegative
  cases s <;>
    simp only [nondefault, ScalarType.NegativeZero, ScalarType.zero, bne_eq_false_iff_eq,
      Bool.and_eq_false_iff] at h hnegative ⊢
  all_goals first | exact h | exact h.resolve_right hnegative

/-! ## Chains of records -/

/-- `xs` is a row of records, with numbers that meet `ok`, which `record` reads
one after the other, whatever follows, on the way from `s` to `s'`. -/
inductive Chain {σ : Type} (record : Key → Bytes → σ → Option (Bytes × σ))
    (ok : BitVec 32 → Prop) : σ → Bytes → σ → Prop where
  | nil (s : σ) : Chain record ok s [] s
  | cons {s s' s'' : σ} {number : BitVec 32} {wt : WireType} {body xs : Bytes} (hok : ok number)
      (hread : ∀ rest, record ⟨tagWord number wt⟩ (body ++ rest) s = some (rest, s'))
      (h : Chain record ok s' xs s'') : Chain record ok s (writeTag number wt ++ body ++ xs) s''

section Chains

variable {σ τ : Type} {record : Key → Bytes → σ → Option (Bytes × σ)}
  {record' : Key → Bytes → τ → Option (Bytes × τ)} {ok ok' : BitVec 32 → Prop}

theorem Chain.single {s s' : σ} {number : BitVec 32} {wt : WireType} {body : Bytes}
    (hok : ok number)
    (hread : ∀ rest, record ⟨tagWord number wt⟩ (body ++ rest) s = some (rest, s')) :
    Chain record ok s (writeTag number wt ++ body) s' := by
  have hchain := Chain.cons hok hread (.nil s')
  rwa [List.append_nil] at hchain

theorem Chain.append {s s' s'' : σ} {xs ys : Bytes} (h : Chain record ok s xs s')
    (h' : Chain record ok s' ys s'') : Chain record ok s (xs ++ ys) s'' := by
  induction h with
  | nil s => exact h'
  | cons hok hread _ ih =>
      rw [List.append_assoc]
      exact .cons hok hread (ih h')

/-- A chain of one `record` is one of another that reads the same records on
the image of the state. -/
theorem Chain.map (g : σ → τ)
    (hmap : ∀ number wt bs s r s', ok number → record ⟨tagWord number wt⟩ bs s = some (r, s') →
      ok' number ∧ record' ⟨tagWord number wt⟩ bs (g s) = some (r, g s'))
    {s s' : σ} {xs : Bytes} (h : Chain record ok s xs s') : Chain record' ok' (g s) xs (g s') := by
  induction h with
  | nil s => exact .nil (g s)
  | cons hok hread _ ih =>
      refine .cons ?_ (fun rest => ?_) ih
      · exact (hmap _ _ _ _ _ _ hok (hread [])).1
      · exact (hmap _ _ _ _ _ _ hok (hread rest)).2

/-- A row of elements, each written as a chain that appends it. -/
theorem Chain.flatMap {α : Type} {record : Key → Bytes → List α → Option (Bytes × List α)}
    {piece : α → Bytes} : ∀ {vs : List α},
    (∀ v ∈ vs, ∀ pre, Chain record ok pre (piece v) (pre ++ [v])) →
    ∀ pre, Chain record ok pre (vs.flatMap piece) (pre ++ vs)
  | [], _, pre => by
      rw [List.append_nil]
      exact .nil pre
  | v :: vs, h, pre => by
      have htail := Chain.flatMap (fun w hw => h w (List.mem_cons_of_mem _ hw)) (pre ++ [v])
      rw [List.append_assoc, List.singleton_append] at htail
      exact (h v (List.mem_cons_self ..) pre).append htail

/-- The loop of `decode` passes over a chain. -/
theorem Chain.consumes (hs : Shrinks (decodeStep record)) {s s' : σ} {xs : Bytes}
    (h : Chain record ok s xs s') : Consumes (decodeStep record) s xs s' := by
  induction h with
  | nil s => exact .refl s
  | @cons s s' s'' number wt body xs hok hread _ ih =>
      refine Consumes.append (Reads.consumes hs ?_ ?_) ih
      · intro hnil
        exact writeTag_ne_nil number wt (List.append_eq_nil_iff.mp hnil).1
      · intro rest
        rw [decodeStep, List.append_assoc, readTag_writeTag]
        exact hread rest

end Chains

/-! ## Members -/

/-- The case of one member. -/
def Field.record (number : BitVec 32) (field : Field) (key : Key) (bs : Bytes) (v : field.Value) :
    Option (Bytes × field.Value) :=
  if key.fieldNumber = number then field.decode key.wireType bs v else none

theorem Field.record_tagWord (number : BitVec 32) (field : Field) (wt : WireType) (bs : Bytes)
    (v : field.Value) : field.record number ⟨tagWord number wt⟩ bs v = field.decode wt bs v := by
  rw [Field.record, Key.fieldNumber_tagWord, Key.wireType_tagWord, if_pos rfl]

/-- A number of the class, below 2^29, as `decode` sees it. -/
def Fields.HasNumber (fs : Fields) (number : BitVec 32) : Prop :=
  ∃ n ∈ fs.numbers, n < 2 ^ 29 ∧ number = BitVec.ofNat 32 n

/-- A member's chain inside its class: the other members stay as they are. -/
theorem Chain.member {number : Nat} {field : Field} (rest : Fields) {v v' : field.Value}
    {xs : Bytes}
    (h : Chain (field.record (BitVec.ofNat 32 number)) (· = BitVec.ofNat 32 number) v xs v')
    (hbound : number < 2 ^ 29) (vs : rest.Value) :
    Chain (Fields.cons number field rest).record (Fields.cons number field rest).HasNumber
      (v, vs) xs (v', vs) := by
  refine h.map (fun v => (v, vs)) fun n wt bs w r w' hok hread => ?_
  rw [hok, Field.record_tagWord] at hread
  refine ⟨⟨number, List.mem_cons_self .., hbound, hok⟩, ?_⟩
  rw [hok, Fields.record, Key.fieldNumber_tagWord, Key.wireType_tagWord, if_pos rfl, hread]
  rfl

/-- The chain of the other members: their numbers are not that of the first. -/
theorem Chain.others {number : Nat} (field : Field) {rest : Fields} {vs vs' : rest.Value}
    {xs : Bytes}
    (h : Chain rest.record rest.HasNumber vs xs vs') (hbound : number < 2 ^ 29)
    (hfresh : number ∉ rest.numbers) (v : field.Value) :
    Chain (Fields.cons number field rest).record (Fields.cons number field rest).HasNumber
      (v, vs) xs (v, vs') := by
  refine h.map (fun vs => (v, vs)) fun n wt bs w r w' hok hread => ?_
  obtain ⟨m, hm, hmbound, rfl⟩ := hok
  have hne : BitVec.ofNat 32 m ≠ BitVec.ofNat 32 number := by
    intro heq
    have hnat := congrArg BitVec.toNat heq
    rw [BitVec.toNat_ofNat, BitVec.toNat_ofNat, Nat.mod_eq_of_lt (by omega),
      Nat.mod_eq_of_lt (by omega)] at hnat
    exact hfresh (hnat ▸ hm)
  refine ⟨⟨m, List.mem_cons_of_mem _ hm, hmbound, rfl⟩, ?_⟩
  rw [Fields.record, Key.fieldNumber_tagWord, if_neg hne, hread]
  rfl

/-- The packed region is read back element by element. -/
theorem consumes_elements (s : ScalarType) : ∀ (vs pre : List s.Value),
    Consumes (readElement s) pre (vs.flatMap (writeValue s)) (pre ++ vs)
  | [], pre => by
      rw [List.append_nil]
      exact .refl pre
  | v :: vs, pre => by
      have htail := consumes_elements s vs (pre ++ [v])
      rw [List.append_assoc, List.singleton_append] at htail
      refine Consumes.append (Reads.consumes (readElement_shrinks s) (writeValue_ne_nil s v) ?_)
        htail
      intro rest
      rw [readElement, readValue_writeValue]
      rfl

theorem ScalarType.wireType_ne (s : ScalarType) : s.wireType ≠ .lengthDelimited := by
  cases s <;> decide

theorem length_le_flatMap {α : Type} (piece : α → Bytes) : ∀ {vs : List α} {v : α}, v ∈ vs →
    (piece v).length ≤ (vs.flatMap piece).length
  | w :: vs, v, h => by
      rw [List.flatMap_cons, List.length_append]
      rcases List.mem_cons.mp h with rfl | h
      · exact Nat.le_add_right ..
      · exact Nat.le_trans (length_le_flatMap piece h) (Nat.le_add_left ..)

/-- What `encode` writes as the region of a sub-message. -/
theorem writeLengthDelimited_encode (fs : Fields) (v : fs.Value) :
    writeVarint (sizeWord (fs.calculateSize v)) ++ fs.encode v =
      writeLengthDelimited (fs.encode v) := by
  rw [writeLengthDelimited, fs.calculateSize_eq]

/-- A region is shorter than the record that it is in. -/
theorem length_region_lt {number : BitVec 32} {wt : WireType} {region : Bytes}
    (h : (writeTag number wt ++ writeLengthDelimited region).length < 2 ^ 64) :
    region.length < 2 ^ 64 := by
  rw [writeLengthDelimited, List.length_append, List.length_append] at h
  omega

mutual

/-- A member's encoding is a chain from the fresh member to its value. -/
theorem Field.chain (number : BitVec 32) : ∀ (field : Field) (v : field.Value), field.WellFormed →
    field.NoNegativeZero v → (field.encode number v).length < 2 ^ 64 →
    Chain (field.record number) (· = number) field.fresh (field.encode number v) v
  | .scalar s, v, _, hnegative, _ => by
      unfold Field.encode
      split
      · refine .single rfl fun rest => ?_
        rw [Field.record_tagWord, Field.decode, readValue_writeValue]
        rfl
      · rename_i hdefault
        rw [eq_zero_of_not_nondefault (Bool.not_eq_true _ ▸ hdefault) hnegative]
        exact .nil _
  | .repeatedScalar s true, vs, _, _, hsize => by
      unfold Field.encode at hsize ⊢
      split at hsize
      · rename_i hempty
        obtain rfl : vs = [] := List.isEmpty_iff.mp hempty
        exact .nil _
      · rename_i hempty
        have hregion : writeVarint (sizeWord (packedSize s vs)) ++ vs.flatMap (writeValue s) =
            writeLengthDelimited (vs.flatMap (writeValue s)) := by
          rw [writeLengthDelimited, packedSize_eq]
        rw [List.append_assoc, hregion] at hsize
        rw [if_neg hempty, List.append_assoc, hregion]
        refine .single rfl fun rest => ?_
        rw [Field.record_tagWord, Field.decode, if_pos rfl,
          readLengthDelimited_write (length_region_lt hsize), Option.bind_some]
        simp only [(consumes_elements s vs []).consume, Field.fresh, List.nil_append]
        rfl
  | .repeatedScalar s false, vs, _, _, _ => by
      unfold Field.encode
      have hchain : ∀ v ∈ vs, ∀ pre, Chain (Field.record number (.repeatedScalar s false))
          (· = number) pre (writeTag number s.wireType ++ writeValue s v) (pre ++ [v]) := by
        intro v _ pre
        refine .single rfl fun rest => ?_
        rw [Field.record_tagWord, Field.decode, if_neg s.wireType_ne, readElement,
          readValue_writeValue]
        rfl
      exact Chain.flatMap hchain []
  | .blob, v, _, _, hsize => by
      unfold Field.encode at hsize ⊢
      split at hsize
      · rename_i hempty
        obtain rfl : v = [] := List.isEmpty_iff.mp hempty
        exact .nil _
      · rename_i hempty
        rw [if_neg hempty]
        refine .single rfl fun rest => ?_
        rw [Field.record_tagWord, Field.decode,
          readLengthDelimited_write (length_region_lt hsize)]
        rfl
  | .repeatedBlob, vs, _, _, hsize => by
      unfold Field.encode at hsize ⊢
      have hchain : ∀ v ∈ vs, ∀ pre, Chain (Field.record number .repeatedBlob) (· = number) pre
          (writeTag number .lengthDelimited ++ writeLengthDelimited v) (pre ++ [v]) := by
        intro v hv pre
        refine .single rfl fun rest => ?_
        have hlen := length_le_flatMap
          (fun v => writeTag number .lengthDelimited ++ writeLengthDelimited v) hv
        have hregion := length_region_lt (lt_of_le_of_lt hlen hsize)
        rw [Field.record_tagWord, Field.decode, readLengthDelimited_write hregion]
        rfl
      exact Chain.flatMap hchain []
  | .message fs, none, _, _, _ => .nil _
  | .message fs, some v, hwf, hnegative, hsize => by
      unfold Field.encode at hsize ⊢
      simp only [Option.elim_some, List.append_assoc, writeLengthDelimited_encode] at hsize ⊢
      refine .single rfl fun rest => ?_
      have hregion := length_region_lt hsize
      have hdecode := fs.chain v hwf (hnegative v rfl) hregion
      rw [Field.record_tagWord, Field.decode, readLengthDelimited_write hregion, Option.bind_some]
      simp only [Field.fresh, Option.getD_none, (hdecode.consumes fs.step_shrinks).consume]
      rfl
  | .repeatedMessage fs, vs, hwf, hnegative, hsize => by
      unfold Field.encode at hsize ⊢
      simp only [List.append_assoc, writeLengthDelimited_encode] at hsize ⊢
      have hchain : ∀ v ∈ vs, ∀ pre, Chain (Field.record number (.repeatedMessage fs))
          (· = number) pre
          (writeTag number .lengthDelimited ++ writeLengthDelimited (fs.encode v)) (pre ++ [v]) := by
        intro v hv pre
        refine .single rfl fun rest => ?_
        have hlen := length_le_flatMap
          (fun v => writeTag number .lengthDelimited ++ writeLengthDelimited (fs.encode v)) hv
        have hregion := length_region_lt (lt_of_le_of_lt hlen hsize)
        have hdecode := fs.chain v hwf (hnegative v hv) hregion
        rw [Field.record_tagWord, Field.decode, readLengthDelimited_write hregion,
          Option.bind_some]
        simp only [(hdecode.consumes fs.step_shrinks).consume]
        rfl
      exact Chain.flatMap hchain []

/-- A class's encoding is a chain from the fresh message to its value. -/
theorem Fields.chain : ∀ (fs : Fields) (v : fs.Value), fs.WellFormed → fs.NoNegativeZero v →
    (fs.encode v).length < 2 ^ 64 →
    Chain fs.record fs.HasNumber fs.fresh (fs.encode v) v
  | .nil, _, _, _, _ => .nil _
  | .cons number field rest, (v, vs), hwf, hnegative, hsize => by
      obtain ⟨hbound, hfresh, hfield, hrest⟩ := hwf
      unfold Fields.encode at hsize ⊢
      rw [List.length_append] at hsize
      have hhead := field.chain (BitVec.ofNat 32 number) v hfield hnegative.1 (by omega)
      have htail := rest.chain vs hrest hnegative.2 (by omega)
      exact (hhead.member rest hbound rest.fresh).append (htail.others field hbound hfresh v)

end

/-- A fresh message of a well-formed class decodes what `encode` wrote to the
value that was encoded, provided that fits a byte string. -/
theorem Fields.decode_encode {fs : Fields} {v : fs.Value} (hwf : fs.WellFormed)
    (hnegative : fs.NoNegativeZero v) (hsize : (fs.encode v).length < 2 ^ 64) :
    fs.decode (fs.encode v) fs.fresh = some v :=
  ((fs.chain v hwf hnegative hsize).consumes fs.step_shrinks).consume

/-- The round trip for every class that is generated for a schema with distinct
field numbers below 2^29 and no recursive message type. -/
theorem message_round_trip {file : List ProtoMessageDef} {classes : Classes}
    (hlayout : layout [] file = some classes) (hnumbers : ∀ m ∈ file, m.NumbersOk) {name : CString}
    {fs : Fields} (hclass : (name, fs) ∈ classes) {v : fs.Value} (hnegative : fs.NoNegativeZero v)
    (hsize : (fs.encode v).length < 2 ^ 64) : fs.decode (fs.encode v) fs.fresh = some v :=
  Fields.decode_encode
    (layout_wellFormed hlayout (fun _ hc => nomatch hc) hnumbers (name, fs) hclass) hnegative hsize

/-- A message type with a string and packed numbers, and one that holds it. -/
def sampleFile : List ProtoMessageDef :=
  [{ name := lit "Inner"
     fields := [{ type := .scalar .sint32, number := 2, repeated := true },
       { type := .string, number := 1 }] },
   { name := lit "Outer"
     fields := [{ type := .scalar .uint32, number := 1 },
       { type := .message, typeName := lit "Inner", number := 2 },
       { type := .message, typeName := lit "Inner", number := 3, repeated := true },
       { type := .scalar .float, number := 4 }] }]

def sampleInner : Fields := .cons 1 .blob (.cons 2 (.repeatedScalar .sint32 true) .nil)

def sampleOuter : Fields :=
  .cons 1 (.scalar .uint32) (.cons 2 (.message sampleInner)
    (.cons 3 (.repeatedMessage sampleInner) (.cons 4 (.scalar .float) .nil)))

theorem layout_sampleFile :
    layout [] sampleFile = some [(lit "Inner", sampleInner), (lit "Outer", sampleOuter)] := rfl

theorem numbersOk_sampleFile : ∀ m ∈ sampleFile, m.NumbersOk := by
  intro m hm
  rcases List.mem_cons.mp hm with rfl | hm
  · exact ⟨by decide, by decide, by decide⟩
  · obtain rfl := List.mem_singleton.mp hm
    exact ⟨by decide, by decide, by decide⟩

/-- A value of the outer message, with its inner messages. -/
def sampleValue (first second : sampleInner.Value) : sampleOuter.Value :=
  (7#32, (some first : Option sampleInner.Value), ([first, second] : List sampleInner.Value),
    0x40490FDB#32, ())

theorem message_round_trip_sample :
    let v := sampleValue ((lit "ab" : Bytes), ([5#32, -3#32, 300#32] : List (BitVec 32)), ())
      (([] : Bytes), ([] : List (BitVec 32)), ())
    sampleOuter.decode (sampleOuter.encode v) sampleOuter.fresh = some v := by
  have hclass : (lit "Outer", sampleOuter) ∈
      [(lit "Inner", sampleInner), (lit "Outer", sampleOuter)] :=
    List.mem_cons_of_mem _ (List.mem_cons_self ..)
  refine message_round_trip layout_sampleFile numbersOk_sampleFile hclass ?_ (by decide)
  have hfloat : ¬ 0x40490FDB#32 = 0x80000000#32 := by decide
  refine ⟨nofun, ?_, ?_, hfloat, trivial⟩
  · intro w _
    exact ⟨trivial, trivial, trivial⟩
  · intro w _
    exact ⟨trivial, trivial, trivial⟩

end EsphomeApi.Proto
