/-
EsphomeApi.Proto.PackedRuns — a repeated number is decoded from packed and
unpacked records alike.

`Fields.Runs number s vs bs` says that `bs` holds the list `vs` of a repeated
field: cut into runs, each of them packed into one record or written as one
record for each element, with records of other fields anywhere between them.
What the encoder writes for the field, packed or not, is one of these forms
(`Fields.runs_encode`). Every record of the field appends its run to the member
and every other record leaves the member alone (`Fields.Holds`), so the list
comes out in order (`Fields.Runs.decode`).
-/
import EsphomeApi.Proto.Records
import EsphomeApi.Proto.GrammarTheorems

namespace EsphomeApi.Proto

open Library

/-! ## Members -/

/-- The members of a class, with their numbers. -/
def Fields.entries : Fields → List (Nat × Field)
  | .nil => []
  | .cons number field rest => (number, field) :: rest.entries

/-- The member of a number holds a value. -/
inductive Fields.Holds (number : Nat) (field : Field) (u : field.Value) :
    (fs : Fields) → fs.Value → Prop where
  | here (rest : Fields) (vs : rest.Value) :
      Holds number field u (.cons number field rest) (u, vs)
  | there {n : Nat} {other : Field} {rest : Fields} (v : other.Value) {vs : rest.Value}
      (h : Holds number field u rest vs) : Holds number field u (.cons n other rest) (v, vs)

variable {number : Nat} {field : Field} {fs : Fields} {bs : Bytes}

theorem Fields.Holds.number_mem {u : field.Value} {v : fs.Value} (h : Holds number field u fs v) :
    number ∈ fs.numbers := by
  induction h with
  | here rest vs => exact List.mem_cons_self ..
  | there v _ ih => exact List.mem_cons_of_mem _ ih

theorem Fields.holds_fresh : ∀ {fs : Fields}, (number, field) ∈ fs.entries →
    Holds number field field.fresh fs fs.fresh
  | .nil, h => absurd h List.not_mem_nil
  | .cons n other rest, h => by
      unfold Fields.fresh
      rcases List.mem_cons.mp h with heq | hrest
      · obtain ⟨rfl, rfl⟩ := Prod.mk.inj heq
        exact .here rest rest.fresh
      · exact .there other.fresh (holds_fresh hrest)

/-- A record of the field runs the case of the field on what the member holds. -/
theorem Fields.Holds.record {u : field.Value} {v : fs.Value} (h : Holds number field u fs v)
    (hfs : fs.WellFormed) {key : Key} (hkey : key.wireNumber = number) {rest : Bytes}
    {u' : field.Value} (hdecode : field.decode key.wireType bs u = some (rest, u')) :
    ∃ v', fs.record key bs v = some (rest, v') ∧ Holds number field u' fs v' := by
  have hfield : key.fieldNumber = BitVec.ofNat 32 number := by rw [key.fieldNumber_eq, hkey]
  induction h with
  | here others vs =>
      refine ⟨(u', vs), ?_, .here others vs⟩
      exact Fields.record_cons_eq_some.mpr (.inl ⟨hfield, rfl, hdecode⟩)
  | @there n other others v vs hothers ih =>
      obtain ⟨hlt, hfresh, -, hwf⟩ := hfs
      have hmem := hothers.number_mem
      have hne : key.fieldNumber ≠ BitVec.ofNat 32 n := by
        intro heq
        have hsame := ofNat_inj_of_lt (Fields.number_lt hwf number hmem) hlt (hfield.symm.trans heq)
        exact hfresh (hsame ▸ hmem)
      obtain ⟨vs', hrecord, hholds⟩ := ih hwf
      refine ⟨(v, vs'), ?_, .there v hholds⟩
      exact Fields.record_cons_eq_some.mpr (.inr ⟨hne, rfl, hrecord⟩)

/-- A record of another number leaves the member alone. -/
theorem Fields.Holds.other {u : field.Value} {v : fs.Value} (h : Holds number field u fs v)
    {key : Key} (hkey : key.fieldNumber ≠ BitVec.ofNat 32 number) {rest : Bytes} {v' : fs.Value}
    (hrecord : fs.record key bs v = some (rest, v')) : Holds number field u fs v' := by
  induction h with
  | here others vs =>
      obtain ⟨w, ws⟩ := v'
      obtain ⟨heq, -, -⟩ | ⟨-, hw, -⟩ := Fields.record_cons_eq_some.mp hrecord
      · exact absurd heq hkey
      · obtain rfl : w = _ := hw
        exact .here others ws
  | there v hothers ih =>
      obtain ⟨w, ws⟩ := v'
      obtain ⟨-, hws, -⟩ | ⟨-, -, hrest⟩ := Fields.record_cons_eq_some.mp hrecord
      · obtain rfl : ws = _ := hws
        exact .there w hothers
      · exact .there w (ih hrest)

/-! ## Runs -/

/-- A tag of a number and a wire type, however long its varint. -/
def IsTag (number : Nat) (wt : WireType) (bs : Bytes) : Prop :=
  ∃ key, readTag bs = some (key, []) ∧ key.wireNumber = number ∧ key.wireType = wt

/-- The bytes of one element. -/
def IsElement (s : ScalarType) (v : s.Value) (bs : Bytes) : Prop := readValue s bs = some (v, [])

/-- The bytes of a packed run. -/
inductive IsElements (s : ScalarType) : List s.Value → Bytes → Prop where
  | nil : IsElements s [] []
  | cons {v : s.Value} {vs : List s.Value} {e bs : Bytes} (he : IsElement s v e)
      (h : IsElements s vs bs) : IsElements s (v :: vs) (e ++ bs)

/-- A record that `decode` reads, of another number than the field's. -/
def Fields.IsOther (fs : Fields) (number : Nat) (bs : Bytes) : Prop :=
  fs.IsRecord bs ∧ ∀ key rest, readTag bs = some (key, rest) →
    key.fieldNumber ≠ BitVec.ofNat 32 number

/-- A list of a repeated field, cut into runs that are packed or not, with records
of other fields between them. -/
inductive Fields.Runs (fs : Fields) (number : Nat) (s : ScalarType) :
    List s.Value → Bytes → Prop where
  | nil : fs.Runs number s [] []
  | packed {run vs : List s.Value} {tag len region bs : Bytes}
      (htag : IsTag number .lengthDelimited tag) (hlen : IsLength len region)
      (hregion : IsElements s run region) (h : fs.Runs number s vs bs) :
      fs.Runs number s (run ++ vs) (tag ++ len ++ region ++ bs)
  | unpacked {v : s.Value} {vs : List s.Value} {tag e bs : Bytes}
      (htag : IsTag number s.wireType tag) (he : IsElement s v e) (h : fs.Runs number s vs bs) :
      fs.Runs number s (v :: vs) (tag ++ e ++ bs)
  | other {vs : List s.Value} {r bs : Bytes} (hr : fs.IsOther number r)
      (h : fs.Runs number s vs bs) : fs.Runs number s vs (r ++ bs)

variable {s : ScalarType}

/-- A packed run is read element by element. -/
theorem IsElements.consumes {vs : List s.Value} (h : IsElements s vs bs) :
    ∀ pre : List s.Value, Consumes (readElement s) pre bs (pre ++ vs) := by
  induction h with
  | nil =>
      intro pre
      rw [List.append_nil]
      exact .refl pre
  | @cons v vs e bs he _ ih =>
      intro pre
      have hne : e ≠ [] := by
        rintro rfl
        exact absurd (readValue_length he) (Nat.lt_irrefl _)
      have hreads : Reads (readElement s) pre e (pre ++ [v]) := by
        intro rest
        rw [readElement, readValue_extends s e v [] he rest]
        rfl
      have htail := ih (pre ++ [v])
      rw [List.append_assoc, List.singleton_append] at htail
      exact (hreads.consumes (readElement_shrinks s) hne).append htail

/-- The turn for a record of the field. -/
theorem Fields.Holds.step {u u' : field.Value} {v : fs.Value} (h : Holds number field u fs v)
    (hfs : fs.WellFormed) {wt : WireType} {tag body rest : Bytes} (htag : IsTag number wt tag)
    (hdecode : field.decode wt (body ++ rest) u = some (rest, u')) :
    ∃ v', fs.decode (tag ++ body ++ rest) v = fs.decode rest v' ∧ Holds number field u' fs v' := by
  obtain ⟨key, hread, hnumber, rfl⟩ := htag
  obtain ⟨v', hrecord, hholds⟩ := h.record hfs hnumber hdecode
  refine ⟨v', Fields.decode_of_step ?_, hholds⟩
  rw [decodeStep, List.append_assoc, readTag_extends tag key [] hread (body ++ rest)]
  exact hrecord

/-- The runs are appended to the member, in order. -/
theorem Fields.Runs.decode {vs : List s.Value} (h : fs.Runs number s vs bs) (hfs : fs.WellFormed)
    {packed : Bool} : ∀ {us : List s.Value} {v : fs.Value},
      Holds number (.repeatedScalar s packed) us fs v →
        ∃ w, fs.decode bs v = some w ∧ Holds number (.repeatedScalar s packed) (us ++ vs) fs w := by
  induction h with
  | nil =>
      intro us v hv
      exact ⟨v, rfl, by rwa [List.append_nil]⟩
  | @packed run vs tag len region bs htag hlen hregion _ ih =>
      intro us v hv
      have hdecode : (Field.repeatedScalar s packed).decode .lengthDelimited
          (len ++ region ++ bs) us = some (bs, us ++ run) := by
        rw [Field.decode, if_pos rfl, readLengthDelimited_of_isLength hlen bs, Option.bind_some]
        simp only [(hregion.consumes us).consume, Option.map_some]
      obtain ⟨v', hstep, hv'⟩ := hv.step hfs htag hdecode
      obtain ⟨w, hw, hholds⟩ := ih hv'
      rw [← List.append_assoc] at hstep
      rw [List.append_assoc] at hholds
      exact ⟨w, hstep.trans hw, hholds⟩
  | @unpacked x vs tag e bs htag he _ ih =>
      intro us v hv
      have hdecode : (Field.repeatedScalar s packed).decode s.wireType (e ++ bs) us =
          some (bs, us ++ [x]) := by
        rw [Field.decode, if_neg s.wireType_ne, readElement, readValue_extends s e x [] he bs]
        rfl
      obtain ⟨v', hstep, hv'⟩ := hv.step hfs htag hdecode
      obtain ⟨w, hw, hholds⟩ := ih hv'
      rw [List.append_assoc] at hholds
      exact ⟨w, hstep.trans hw, hholds⟩
  | @other vs r bs hr _ ih =>
      intro us v hv
      obtain ⟨v', hstep⟩ := hr.1.step v
      have hrecord := hstep []
      rw [List.append_nil] at hrecord
      obtain ⟨⟨key, rest⟩, htag, hread⟩ := Option.bind_eq_some_iff.mp hrecord
      obtain ⟨w, hw, hholds⟩ := ih (hv.other (hr.2 key rest htag) hread)
      exact ⟨w, (Fields.decode_of_step (hstep bs)).trans hw, hholds⟩

/-! ## What the encoder writes -/

theorem isTag_writeTag (hnumber : number < 2 ^ 29) (wt : WireType) :
    IsTag number wt (writeTag (BitVec.ofNat 32 number) wt) := by
  have hread := readTag_writeTag (BitVec.ofNat 32 number) wt []
  rw [List.append_nil] at hread
  refine ⟨_, hread, ?_, Key.wireType_tagWord _ wt⟩
  rw [Key.wireNumber_tagWord, BitVec.toNat_ofNat]
  exact Nat.mod_eq_of_lt (by omega)

theorem isLength_writeVarint {region : Bytes} (h : region.length < 2 ^ 64) :
    IsLength (writeVarint (sizeWord region.length)) region := by
  have hread := readVarint_writeVarint (sizeWord region.length) []
  rw [List.append_nil] at hread
  refine ⟨_, hread, ?_⟩
  rw [sizeWord, BitVec.toNat_ofNat, Nat.mod_eq_of_lt h]

theorem isElement_writeValue (v : s.Value) : IsElement s v (writeValue s v) := by
  have hread := readValue_writeValue s v []
  rwa [List.append_nil] at hread

theorem isElements_flatMap : ∀ vs : List s.Value, IsElements s vs (vs.flatMap (writeValue s))
  | [] => .nil
  | v :: vs => .cons (isElement_writeValue v) (isElements_flatMap vs)

theorem Fields.runs_unpacked (hnumber : number < 2 ^ 29) : ∀ vs : List s.Value,
    fs.Runs number s vs
      (vs.flatMap fun v => writeTag (BitVec.ofNat 32 number) s.wireType ++ writeValue s v)
  | [] => .nil
  | v :: vs => .unpacked (isTag_writeTag hnumber s.wireType) (isElement_writeValue v)
      (runs_unpacked hnumber vs)

/-- What the encoder writes for the field is one of the forms, packed or not. -/
theorem Fields.runs_encode (hnumber : number < 2 ^ 29) (packed : Bool) (vs : List s.Value)
    (hsize : ((Field.repeatedScalar s packed).encode (BitVec.ofNat 32 number) vs).length < 2 ^ 64) :
    fs.Runs number s vs ((Field.repeatedScalar s packed).encode (BitVec.ofNat 32 number) vs) := by
  cases packed with
  | false =>
      unfold Field.encode
      exact Fields.runs_unpacked hnumber vs
  | true =>
      unfold Field.encode at hsize ⊢
      split at hsize
      · next hempty =>
        obtain rfl : vs = [] := List.isEmpty_iff.mp hempty
        exact .nil
      · next hempty =>
        rw [if_neg hempty, packedSize_eq]
        rw [List.length_append] at hsize
        have hregion : (vs.flatMap (writeValue s)).length < 2 ^ 64 := by omega
        have hnil : fs.Runs number s [] [] := .nil
        have hruns := Fields.Runs.packed (isTag_writeTag hnumber .lengthDelimited)
          (isLength_writeVarint hregion) (isElements_flatMap vs) hnil
        simpa using hruns

/-- For every class of a schema and every repeated number in it: any row of packed
and unpacked records of the field that make up a list, with records of other
fields between them, decodes to exactly that list, whether the class packs the
field or not; and the encoder's two forms are such rows. -/
theorem repeated_runs_decode {file : List ProtoMessageDef} {classes : Classes}
    (hlayout : layout [] file = some classes) (hnumbers : ∀ m ∈ file, m.NumbersOk) {name : CString}
    {fs : Fields} (hclass : (name, fs) ∈ classes) {number : Nat} {s : ScalarType} {packed : Bool}
    (hmember : (number, .repeatedScalar s packed) ∈ fs.entries) :
    (∀ (vs : List s.Value) (bs : Bytes), fs.Runs number s vs bs →
      ∃ w, fs.decode bs fs.fresh = some w ∧
        Fields.Holds number (.repeatedScalar s packed) vs fs w) ∧
    ∀ (vs : List s.Value) (form : Bool),
      ((Field.repeatedScalar s form).encode (BitVec.ofNat 32 number) vs).length < 2 ^ 64 →
        fs.Runs number s vs ((Field.repeatedScalar s form).encode (BitVec.ofNat 32 number) vs) := by
  have hwf : fs.WellFormed := layout_wellFormed hlayout nofun hnumbers (name, fs) hclass
  have hfresh := Fields.holds_fresh hmember
  have hbound := Fields.number_lt hwf number hfresh.number_mem
  refine ⟨fun vs bs hruns => ?_, fun vs form => Fields.runs_encode hbound form vs⟩
  exact hruns.decode hwf hfresh

/-- Three numbers: a packed run of one, a string, a record of its own, and another
packed run. -/
theorem repeated_runs_decode_sample :
    ∃ w, sampleInner.decode [0x12, 0x01, 0x0A, 0x0A, 0x01, 0x61, 0x10, 0x05, 0x12, 0x02, 0xD8, 0x04]
      sampleInner.fresh = some w ∧
        Fields.Holds 2 (.repeatedScalar .sint32 true) ([5#32, -3#32, 300#32] : List (BitVec 32))
          sampleInner w := by
  have hclass : (lit "Inner", sampleInner) ∈
      [(lit "Inner", sampleInner), (lit "Outer", sampleOuter)] :=
    List.mem_cons_self ..
  have hpacked : IsTag 2 .lengthDelimited [0x12] := ⟨⟨0x12⟩, rfl, by decide, by decide⟩
  have hunpacked : IsTag 2 ScalarType.sint32.wireType [0x10] := ⟨⟨0x10⟩, rfl, by decide, by decide⟩
  have hstring : sampleInner.IsOther 2 [0x0A, 0x01, 0x61] := by
    refine ⟨⟨sampleInner.fresh, _, rfl⟩, fun key rest h => ?_⟩
    obtain ⟨rfl, -⟩ := Prod.mk.inj (Option.some_inj.mp h)
    decide
  have hlast : sampleInner.Runs 2 .sint32 ([300#32] ++ [])
      ([0x12] ++ [0x02] ++ ([0xD8, 0x04] ++ []) ++ []) :=
    .packed hpacked ⟨2, rfl, rfl⟩ (.cons rfl .nil) .nil
  have hmiddle : sampleInner.Runs 2 .sint32 (-3#32 :: [300#32])
      ([0x10] ++ [0x05] ++ [0x12, 0x02, 0xD8, 0x04]) := .unpacked hunpacked rfl hlast
  have hruns : sampleInner.Runs 2 .sint32 ([5#32] ++ [-3#32, 300#32])
      ([0x12] ++ [0x01] ++ ([0x0A] ++ []) ++
        ([0x0A, 0x01, 0x61] ++ [0x10, 0x05, 0x12, 0x02, 0xD8, 0x04])) :=
    .packed hpacked ⟨1, rfl, rfl⟩ (.cons rfl .nil) (.other hstring hmiddle)
  exact (repeated_runs_decode layout_sampleFile numbersOk_sampleFile hclass
    (List.mem_cons_of_mem _ (List.mem_cons_self ..))).1 _ _ hruns

end EsphomeApi.Proto
