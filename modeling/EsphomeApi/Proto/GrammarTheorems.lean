/-
EsphomeApi.Proto.GrammarTheorems — the generated `decode` follows the wire
grammar exactly where every tag fits the class.

A tag that fits is either valid for a member, whose case then reads what the
grammar reads (`Field.decode_eq`), or goes to the default branch, which skips;
and the grammar changes nothing for a record that is not valid
(`Fields.update_of_not_valid`). A tag that does not fit runs the case of a
member, and that does on the bytes at hand what skipping them does only if it
is idle (`Field.idle_iff`).
-/
import EsphomeApi.Proto.Grammar
import EsphomeApi.Proto.Records

namespace EsphomeApi.Proto

open Library

/-! ## Records consume input -/

theorem skipField_eq (wt : WireType) (bs : Bytes) :
    skipField wt bs = (readPayload wt bs).map Prod.snd := by
  unfold skipField readPayload
  split
  · rw [Option.map_map]
    rfl
  · split
    · rw [Option.map_map]
      rfl
    · split
      · rw [Option.map_map]
        rfl
      · split
        · rw [Option.map_map]
          rfl
        · rfl

theorem readPayload_length {wt : WireType} {bs rest : Bytes} {p : Payload}
    (h : readPayload wt bs = some (p, rest)) : rest.length < bs.length := by
  have hskip : skipField wt bs = some rest := by
    rw [skipField_eq, h]
    rfl
  exact skipField_length hskip

theorem readRecord_shrinks : ReadShrinks readRecord := by
  intro bs r rest h
  obtain ⟨⟨key, tail⟩, htag, hmap⟩ := Option.bind_eq_some_iff.mp h
  obtain ⟨⟨p, tail'⟩, hpayload, heq⟩ := Option.map_eq_some_iff.mp hmap
  cases heq
  exact Nat.lt_trans (readPayload_length hpayload) (readTag_length htag)

theorem readValue_shrinks (s : ScalarType) : ReadShrinks (readValue s) :=
  fun _ _ _ h => readValue_length h

/-! ## Valid tags -/

/-- An element is the payload of its wire type. -/
theorem readValue_eq (s : ScalarType) (bs : Bytes) :
    readValue s bs = (readPayload s.wireType bs).bind fun (p, rest) =>
      (s.ofPayload p).map fun v => (v, rest) := by
  have h64 : readPayload .fixed64 bs = (readFixed64 bs).map fun r => (.fixed64 r.1, r.2) := rfl
  have h32 : readPayload .fixed32 bs = (readFixed32 bs).map fun r => (.fixed32 r.1, r.2) := rfl
  have hvarint : readPayload .varint bs = (readVarint bs).map fun r => (.varint r.1, r.2) := rfl
  cases s <;> simp only [readValue, ScalarType.wireType, h64, h32, hvarint] <;>
    first
    | (cases readVarint bs <;> rfl)
    | (cases readFixed64 bs <;> rfl)
    | (cases readFixed32 bs <;> rfl)

/-- A payload of the element's wire type gives an element. -/
theorem ofPayload_isSome {s : ScalarType} {bs rest : Bytes} {p : Payload}
    (h : readPayload s.wireType bs = some (p, rest)) : ∃ v, s.ofPayload p = some v := by
  cases s
  all_goals
    obtain ⟨⟨v, tail⟩, -, heq⟩ := Option.map_eq_some_iff.mp h
    cases heq
    exact ⟨_, rfl⟩

theorem readPayload_lengthDelimited (bs : Bytes) : readPayload .lengthDelimited bs =
    (readLengthDelimited bs).map fun (region, rest) => (.lengthDelimited region, rest) := rfl

theorem region_of_ofPayload {s : ScalarType} {p : Payload} {v : s.Value}
    (h : s.ofPayload p = some v) : p.region = none := by
  cases p with
  | lengthDelimited region => cases s <;> exact nomatch h
  | varint word => rfl
  | fixed64 word => rfl
  | fixed32 word => rfl

/-- The turn of the loop that the grammar takes. -/
def Fields.grammarStep (fs : Fields) (bs : Bytes) (v : fs.Value) : Option (Bytes × fs.Value) :=
  (readRecord bs).bind fun out => (fs.update out.1 v).map fun v => (out.2, v)

theorem Fields.grammarStep_shrinks (fs : Fields) : Shrinks fs.grammarStep :=
  readRecord_shrinks.shrinks (f := fun v r => fs.update r v)

theorem Fields.consume_grammarStep (fs : Fields) (bs : Bytes) (v : fs.Value) :
    consume fs.grammarStep bs v = fs.grammarDecode bs v :=
  consume_fold readRecord_shrinks (fun v r => fs.update r v) bs.length bs (Nat.le_refl _) v

/-- The loops agree if the turns do. -/
theorem Fields.decode_eq_of_follows {fs : Fields} {bs : Bytes} (h : AtTags fs.FollowsAt bs)
    (v : fs.Value) : fs.decode bs v = fs.grammarDecode bs v := by
  have hskip : ∀ tail v rest v', fs.grammarStep tail v = some (rest, v') →
      skipRecord tail = some rest := by
    intro tail v rest v' hstep
    obtain ⟨⟨r, rest'⟩, hread, hmap⟩ := Option.bind_eq_some_iff.mp hstep
    obtain ⟨u, -, heq⟩ := Option.map_eq_some_iff.mp hmap
    cases heq
    rw [skipRecord, hread]
    rfl
  have hagree : ∀ tail v, Starts skipRecord bs tail → tail ≠ [] →
      decodeStep fs.record tail v = fs.grammarStep tail v := by
    intro tail v hstart _
    unfold decodeStep grammarStep readRecord
    cases htag : readTag tail with
    | none => rfl
    | some out =>
        obtain ⟨key, rest⟩ := out
        simp only [Option.bind_some, h tail hstart key rest htag v]
        cases readPayload key.wireType rest with
        | none => rfl
        | some _ => rfl
  rw [Fields.decode, ← fs.consume_grammarStep]
  exact consume_congr fs.step_shrinks fs.grammarStep_shrinks hskip bs.length bs (Nat.le_refl _)
    hagree v

theorem Fields.numbers_of_valid : ∀ {fs : Fields} {key : Key}, fs.Valid key →
    key.wireNumber ∈ fs.numbers
  | .nil, _, h => h.elim
  | .cons _ _ _, _, .inl h => h.1 ▸ List.mem_cons_self ..
  | .cons _ _ _, _, .inr h => List.mem_cons_of_mem _ (numbers_of_valid h)

theorem Fields.number_lt : ∀ {fs : Fields}, fs.WellFormed → ∀ n ∈ fs.numbers, n < 2 ^ 29
  | .nil, _, _, hn => absurd hn List.not_mem_nil
  | .cons _ _ _, hfs, n, hn => by
      rcases List.mem_cons.mp hn with rfl | hn
      · exact hfs.1
      · exact number_lt hfs.2.2.2 n hn

theorem Key.fieldNumber_eq (key : Key) : key.fieldNumber = BitVec.ofNat 32 key.wireNumber := by
  refine BitVec.eq_of_toNat_eq ?_
  rw [Key.fieldNumber, Key.wireNumber, BitVec.toNat_setWidth, BitVec.toNat_ofNat]

theorem ofNat_inj_of_lt {a b : Nat} (ha : a < 2 ^ 29) (hb : b < 2 ^ 29)
    (h : BitVec.ofNat 32 a = BitVec.ofNat 32 b) : a = b := by
  have hnat := congrArg BitVec.toNat h
  rw [BitVec.toNat_ofNat, BitVec.toNat_ofNat] at hnat
  omega

/-! ## Records that are not valid -/

def Payload.wireType : Payload → WireType
  | .varint _ => .varint
  | .fixed64 _ => .fixed64
  | .lengthDelimited _ => .lengthDelimited
  | .fixed32 _ => .fixed32

theorem readPayload_wireType {wt : WireType} {bs rest : Bytes} {p : Payload}
    (h : readPayload wt bs = some (p, rest)) : p.wireType = wt := by
  have hmap {α : Type} {out : Option α} {f : α → Payload × Bytes} {wt' : WireType}
      (hout : out.map f = some (p, rest)) (hf : ∀ x, (f x).1.wireType = wt') :
      p.wireType = wt' := by
    obtain ⟨x, -, heq⟩ := Option.map_eq_some_iff.mp hout
    rw [← hf x, heq]
  unfold readPayload at h
  split at h
  · next hwt => exact hwt ▸ hmap h fun _ => rfl
  · split at h
    · next hwt => exact hwt ▸ hmap h fun _ => rfl
    · split at h
      · next hwt => exact hwt ▸ hmap h fun _ => rfl
      · split at h
        · next hwt => exact hwt ▸ hmap h fun _ => rfl
        · cases h

theorem ofPayload_wireType {s : ScalarType} {p : Payload} {v : s.Value}
    (h : s.ofPayload p = some v) : p.wireType = s.wireType := by
  cases s <;> cases p <;> first | rfl | exact nomatch h

theorem ofPayload_of_ne {s : ScalarType} {p : Payload} (h : p.wireType ≠ s.wireType) :
    s.ofPayload p = none := by
  cases hv : s.ofPayload p with
  | none => rfl
  | some v => exact absurd (ofPayload_wireType hv) h

theorem region_of_ne {p : Payload} (h : p.wireType ≠ .lengthDelimited) : p.region = none := by
  cases p with
  | lengthDelimited region => exact absurd rfl h
  | _ => rfl

/-- A payload that is not one for the member changes nothing. -/
theorem Field.update_of_not_valid {field : Field} {p : Payload}
    (h : ¬ field.validWireType p.wireType) (v : field.Value) : field.update p v = some v := by
  cases field with
  | scalar s => rw [Field.update, ofPayload_of_ne h, Option.getD_none]
  | repeatedScalar s packed =>
      obtain ⟨hscalar, hregion⟩ := not_or.mp h
      rw [Field.update, region_of_ne hregion, ofPayload_of_ne hscalar]
      simp
  | blob => rw [Field.update, region_of_ne h, Option.getD_none]
  | repeatedBlob =>
      rw [Field.update, region_of_ne h]
      exact congrArg some (List.append_nil _)
  | message fs =>
      rw [Field.update, region_of_ne h]
      rfl
  | repeatedMessage fs =>
      rw [Field.update, region_of_ne h]
      rfl

theorem Fields.update_of_not_valid : ∀ {fs : Fields} {key : Key} {p : Payload},
    ¬ fs.Valid key → p.wireType = key.wireType → ∀ v,
      fs.update ⟨key.wireNumber, p⟩ v = some v
  | .nil, _, _, _, _, _ => rfl
  | .cons number field rest, key, p, h, hp, (v, vs) => by
      obtain ⟨hfield, hrest⟩ := not_or.mp h
      unfold Fields.update
      by_cases hnumber : key.wireNumber = number
      · have hwt : ¬ field.validWireType p.wireType := fun hwt => hfield ⟨hnumber, hp ▸ hwt⟩
        rw [if_pos hnumber, Field.update_of_not_valid hwt, Option.map_some]
      · rw [if_neg hnumber, update_of_not_valid hrest hp, Option.map_some]

/-- Skipping a record that is not valid is what the grammar does with it. -/
theorem Fields.followsAt_of_skips {fs : Fields} {key : Key} {bs : Bytes}
    (hvalid : ¬ fs.Valid key) (h : fs.Skips key bs) : fs.FollowsAt key bs := by
  intro v
  rw [h v, skipField_eq, Option.map_map]
  cases hread : readPayload key.wireType bs with
  | none => rfl
  | some out =>
      have hwt : out.1.wireType = key.wireType := readPayload_wireType hread
      simp [Fields.update_of_not_valid hvalid hwt]

/-! ## Idle cases -/

theorem exists_ne_zero (s : ScalarType) : ∃ v : s.Value, v ≠ s.zero := by
  cases s with
  | double => exact ⟨1#64, by decide⟩
  | int64 => exact ⟨1#64, by decide⟩
  | uint64 => exact ⟨1#64, by decide⟩
  | sint64 => exact ⟨1#64, by decide⟩
  | fixed64 => exact ⟨1#64, by decide⟩
  | sfixed64 => exact ⟨1#64, by decide⟩
  | bool => exact ⟨true, by decide⟩
  | float => exact ⟨1#32, by decide⟩
  | int32 => exact ⟨1#32, by decide⟩
  | uint32 => exact ⟨1#32, by decide⟩
  | sint32 => exact ⟨1#32, by decide⟩
  | fixed32 => exact ⟨1#32, by decide⟩
  | sfixed32 => exact ⟨1#32, by decide⟩
  | enum => exact ⟨1#32, by decide⟩

theorem append_singleton_ne {α : Type} (xs : List α) (x : α) : xs ++ [x] ≠ xs := by
  intro h
  have hlen := congrArg List.length h
  rw [List.length_append, List.length_singleton] at hlen
  omega

/-- A region in which no element is read is empty. -/
theorem region_nil_of_consume {s : ScalarType} {region : Bytes}
    (h : consume (readElement s) region [] = some []) : region = [] := by
  by_contra hne
  have hsplit := consume_split (readValue_shrinks s) region.length region (Nat.le_refl _) []
  have hread : (split (readValue s) region).map (fun more => [] ++ more) = some [] :=
    hsplit.symm.trans h
  rw [split_of_ne_nil (readValue_shrinks s) hne] at hread
  obtain ⟨elements, hsome, hnil⟩ := Option.map_eq_some_iff.mp hread
  obtain ⟨out, -, hmap⟩ := Option.bind_eq_some_iff.mp hsome
  obtain ⟨more, -, rfl⟩ := Option.map_eq_some_iff.mp hmap
  cases hnil

/-- A member's case that does nothing but leave what a skipped record leaves reads
a run of no elements. -/
theorem Field.emptyRun_of_unchanged : ∀ {field : Field} {wt : WireType} {bs rest : Bytes},
    (∀ v, field.decode wt bs v = some (rest, v)) → field.EmptyRun wt bs
  | .scalar s, wt, bs, rest, h => by
      obtain ⟨u, hu⟩ := exists_ne_zero s
      have hsame : some (rest, u) = some (rest, s.zero) := (h u).symm.trans (h s.zero)
      exact absurd (Prod.mk.inj (Option.some_inj.mp hsame)).2 hu
  | .repeatedScalar s packed, wt, bs, rest, h => by
      have hnil := h ([] : List s.Value)
      unfold Field.decode at hnil
      by_cases hwt : wt = .lengthDelimited
      · rw [if_pos hwt] at hnil
        obtain ⟨⟨region, tail⟩, hread, hmap⟩ := Option.bind_eq_some_iff.mp hnil
        obtain ⟨vs, hvs, heq⟩ := Option.map_eq_some_iff.mp hmap
        cases heq
        refine ⟨hwt, rest, ?_⟩
        rwa [region_nil_of_consume hvs] at hread
      · rw [if_neg hwt] at hnil
        obtain ⟨out, -, heq⟩ := Option.map_eq_some_iff.mp hnil
        exact absurd (Prod.mk.inj heq).2 (append_singleton_ne _ _)
  | .blob, wt, bs, rest, h => by
      have hsame : some (rest, ([0] : Bytes)) = some (rest, ([] : Bytes)) :=
        (h ([0] : Bytes)).symm.trans (h ([] : Bytes))
      cases hsame
  | .repeatedBlob, wt, bs, rest, h => by
      obtain ⟨out, -, heq⟩ := Option.map_eq_some_iff.mp (h ([] : List Bytes))
      exact absurd (Prod.mk.inj heq).2 (append_singleton_ne _ _)
  | .message fs, wt, bs, rest, h => by
      obtain ⟨out, -, hmap⟩ := Option.bind_eq_some_iff.mp (h (none : Option fs.Value))
      obtain ⟨v, -, heq⟩ := Option.map_eq_some_iff.mp hmap
      cases heq
  | .repeatedMessage fs, wt, bs, rest, h => by
      obtain ⟨out, -, hmap⟩ := Option.bind_eq_some_iff.mp (h ([] : List fs.Value))
      obtain ⟨v, -, heq⟩ := Option.map_eq_some_iff.mp hmap
      exact absurd (Prod.mk.inj heq).2 (append_singleton_ne _ _)

theorem Field.decode_emptyRun {field : Field} {wt : WireType} {bs : Bytes}
    (h : field.EmptyRun wt bs) (v : field.Value) :
    field.decode wt bs v = (skipField wt bs).map fun rest => (rest, v) := by
  cases field with
  | repeatedScalar s packed =>
      obtain ⟨rfl, rest, hread⟩ := h
      have hskip : skipField .lengthDelimited bs = some rest := by
        rw [skipField_eq, readPayload_lengthDelimited, hread]
        rfl
      unfold Field.decode
      rw [if_pos rfl, hread, hskip]
      rfl
  | _ => exact h.elim

/-- A case does with the bytes what skipping them does if and only if it is idle. -/
theorem Field.idle_iff {field : Field} {wt : WireType} {bs : Bytes} :
    field.Idle wt bs ↔
      ∀ v, field.decode wt bs v = (skipField wt bs).map fun rest => (rest, v) := by
  constructor
  · rintro (⟨hskip, hfails⟩ | hempty) v
    · rw [hskip, Option.map_none]
      cases hdecode : field.decode wt bs v with
      | none => rfl
      | some out =>
          obtain ⟨v', hv'⟩ := field.decode_stateFree wt bs v out.1 out.2 hdecode field.fresh
          exact nomatch hfails.symm.trans hv'
    · exact Field.decode_emptyRun hempty v
  · intro h
    cases hskip : skipField wt bs with
    | none =>
        refine .inl ⟨hskip, ?_⟩
        rw [h, hskip, Option.map_none]
    | some rest =>
        have hunchanged : ∀ v, field.decode wt bs v = some (rest, v) := by
          intro v
          rw [h, hskip, Option.map_some]
        exact .inr (Field.emptyRun_of_unchanged hunchanged)

/-- The tag runs the case of the first member. -/
theorem Fields.skips_cons_of_eq {number : Nat} {field : Field} {rest : Fields} {key : Key}
    {bs : Bytes} (hnumber : key.fieldNumber = BitVec.ofNat 32 number) :
    (Fields.cons number field rest).Skips key bs ↔
      ∀ v, field.decode key.wireType bs v = (skipField key.wireType bs).map fun tail => (tail, v) := by
  constructor
  · intro h v
    have hrecord := h (v, rest.fresh)
    unfold Fields.record at hrecord
    rw [if_pos hnumber] at hrecord
    have hmap := congrArg (Option.map fun out : Bytes × (field.Value × rest.Value) =>
      (out.1, out.2.1)) hrecord
    simpa only [Option.map_map, Function.comp_def, Option.map_id'] using hmap
  · rintro h ⟨v, vs⟩
    unfold Fields.record
    rw [if_pos hnumber, h v, Option.map_map]
    rfl

/-- The tag runs a later case, or the default branch. -/
theorem Fields.skips_cons_of_ne {number : Nat} {field : Field} {rest : Fields} {key : Key}
    {bs : Bytes} (hnumber : key.fieldNumber ≠ BitVec.ofNat 32 number) :
    (Fields.cons number field rest).Skips key bs ↔ rest.Skips key bs := by
  constructor
  · intro h vs
    have hrecord := h (field.fresh, vs)
    unfold Fields.record at hrecord
    rw [if_neg hnumber] at hrecord
    have hmap := congrArg (Option.map fun out : Bytes × (field.Value × rest.Value) =>
      (out.1, out.2.2)) hrecord
    simpa only [Option.map_map, Function.comp_def, Option.map_id'] using hmap
  · rintro h ⟨v, vs⟩
    unfold Fields.record
    rw [if_neg hnumber, h vs, Option.map_map]
    rfl

/-- A tag is skipped if and only if its number is no member's, as the decoder sees
it, or the member's case is idle. -/
theorem Fields.skips_iff : ∀ {fs : Fields} {key : Key} {bs : Bytes}, fs.Skips key bs ↔
    (∀ n ∈ fs.numbers, key.fieldNumber ≠ BitVec.ofNat 32 n) ∨ fs.Idle key bs
  | .nil, key, bs => by
      refine ⟨fun _ => .inl fun _ hn => absurd hn List.not_mem_nil, fun _ v => ?_⟩
      unfold Fields.record
      rfl
  | .cons number field rest, key, bs => by
      unfold Fields.Idle
      by_cases hnumber : key.fieldNumber = BitVec.ofNat 32 number
      · have hknown : ¬ ∀ n ∈ (Fields.cons number field rest).numbers,
            key.fieldNumber ≠ BitVec.ofNat 32 n :=
          fun h => h number (List.mem_cons_self ..) hnumber
        rw [if_pos hnumber, or_iff_right hknown, Fields.skips_cons_of_eq hnumber, Field.idle_iff]
      · have hnumbers : (∀ n ∈ (Fields.cons number field rest).numbers,
            key.fieldNumber ≠ BitVec.ofNat 32 n) ↔
              ∀ n ∈ rest.numbers, key.fieldNumber ≠ BitVec.ofNat 32 n :=
          List.forall_mem_cons.trans (and_iff_right hnumber)
        rw [if_neg hnumber, hnumbers, Fields.skips_cons_of_ne hnumber, Fields.skips_iff]

/-- A tag that fits, and is not valid, is skipped. -/
theorem Fields.fitsAt_iff {fs : Fields} {key : Key} {bs : Bytes} :
    fs.FitsAt key bs ↔ (¬ fs.Valid key → fs.Skips key bs) := by
  rw [Fields.skips_iff]
  constructor
  · rintro ((hvalid | hunknown) | hidle) hnot
    · exact absurd hvalid hnot
    · exact .inl hunknown
    · exact .inr hidle
  · intro h
    by_cases hvalid : fs.Valid key
    · exact .inl (.inl hvalid)
    · exact (h hvalid).imp .inr id

/-! ## Tags that fit -/

/-- Behind a tag that fits, the decoder does what the grammar does, if it does
behind a valid one. -/
theorem Fields.followsAt {fs : Fields} {key : Key} {bs : Bytes} (hfits : fs.FitsAt key bs)
    (hvalid : fs.Valid key → fs.FollowsAt key bs) : fs.FollowsAt key bs := by
  by_cases h : fs.Valid key
  · exact hvalid h
  · exact Fields.followsAt_of_skips h (Fields.fitsAt_iff.mp hfits h)

mutual

/-- A member's case reads what the grammar reads, for a wire type that is
valid for the member. -/
theorem Field.decode_eq : ∀ {field : Field}, field.WellFormed → ∀ {wt : WireType} {bs : Bytes},
    field.validWireType wt → field.Nested Fields.FitsAt wt bs → ∀ v,
      field.decode wt bs v = (readPayload wt bs).bind fun (p, rest) =>
        (field.update p v).map fun v => (rest, v)
  | .scalar s, _, wt, bs, hwt, _, v => by
      obtain rfl : wt = s.wireType := hwt
      unfold Field.decode
      rw [readValue_eq]
      cases hread : readPayload s.wireType bs with
      | none => rfl
      | some out =>
          obtain ⟨u, hu⟩ := ofPayload_isSome hread
          simp [Field.update, hu]
  | .repeatedScalar s packed, _, wt, bs, hwt, _, vs => by
      unfold Field.decode
      by_cases hpacked : wt = .lengthDelimited
      · subst hpacked
        rw [if_pos rfl, readPayload_lengthDelimited]
        cases readLengthDelimited bs with
        | none => rfl
        | some out =>
            have hsplit := consume_split (readValue_shrinks s) out.1.length out.1
              (Nat.le_refl _) vs
            exact congrArg (Option.map fun vs => (out.2, vs)) hsplit
      · rw [if_neg hpacked, readElement, readValue_eq]
        obtain rfl : wt = s.wireType := hwt.resolve_right hpacked
        cases hread : readPayload s.wireType bs with
        | none => rfl
        | some out =>
            obtain ⟨u, hu⟩ := ofPayload_isSome hread
            simp [Field.update, hu, region_of_ofPayload hu]
  | .blob, _, wt, bs, hwt, _, v => by
      obtain rfl : wt = .lengthDelimited := hwt
      unfold Field.decode
      rw [readPayload_lengthDelimited]
      cases readLengthDelimited bs with
      | none => rfl
      | some _ => rfl
  | .repeatedBlob, _, wt, bs, hwt, _, v => by
      obtain rfl : wt = .lengthDelimited := hwt
      unfold Field.decode
      rw [readPayload_lengthDelimited]
      cases readLengthDelimited bs with
      | none => rfl
      | some _ => rfl
  | .message fs, hfs, wt, bs, hwt, hnested, v => by
      obtain rfl : wt = .lengthDelimited := hwt
      unfold Field.decode
      rw [readPayload_lengthDelimited]
      cases hread : readLengthDelimited bs with
      | none => rfl
      | some out =>
          obtain ⟨region, rest⟩ := out
          have hregion : AtTags fs.FollowsAt region := fun tail hstart key bs htag =>
            have hkey := hnested rfl region rest hread tail hstart key bs htag
            Fields.followsAt hkey.1 fun hvalid => Fields.record_eq hfs hvalid hkey.2
          have hsub := Fields.decode_eq_of_follows hregion (Option.getD v fs.fresh)
          simp only [Option.bind_some, Option.map_some, Field.update, Payload.region,
            Option.elim_some, Option.map_map]
          exact congrArg (Option.map fun v => (rest, (some v : Option fs.Value))) hsub
  | .repeatedMessage fs, hfs, wt, bs, hwt, hnested, vs => by
      obtain rfl : wt = .lengthDelimited := hwt
      unfold Field.decode
      rw [readPayload_lengthDelimited]
      cases hread : readLengthDelimited bs with
      | none => rfl
      | some out =>
          obtain ⟨region, rest⟩ := out
          have hregion : AtTags fs.FollowsAt region := fun tail hstart key bs htag =>
            have hkey := hnested rfl region rest hread tail hstart key bs htag
            Fields.followsAt hkey.1 fun hvalid => Fields.record_eq hfs hvalid hkey.2
          have hsub := Fields.decode_eq_of_follows hregion fs.fresh
          simp only [Option.bind_some, Option.map_some, Field.update, Payload.region,
            Option.elim_some, Option.map_map]
          exact congrArg (Option.map fun v => (rest, (List.append vs [v] : List fs.Value))) hsub

/-- Behind a valid tag, the decoder does what the grammar does. -/
theorem Fields.record_eq : ∀ {fs : Fields}, fs.WellFormed → ∀ {key : Key} {bs : Bytes},
    fs.Valid key → fs.Nested Fields.FitsAt key bs → fs.FollowsAt key bs
  | .nil, _, _, _, hvalid, _, _ => hvalid.elim
  | .cons number field rest, hfs, key, bs, hvalid, hnested, (v, vs) => by
      obtain ⟨hbound, hfresh, hfield, hrest⟩ := hfs
      unfold Fields.record
      by_cases hnumber : key.wireNumber = number
      · -- the case of this member runs, and the tag is valid for no other
        have hfieldNumber : key.fieldNumber = BitVec.ofNat 32 number := hnumber ▸ key.fieldNumber_eq
        have hwt : field.validWireType key.wireType := by
          rcases hvalid with ⟨-, hwt⟩ | hvalid
          · exact hwt
          · exact absurd (hnumber ▸ Fields.numbers_of_valid hvalid) hfresh
        rw [if_pos hfieldNumber, Field.decode_eq hfield hwt (hnested.1 hnumber) v]
        cases readPayload key.wireType bs with
        | none => rfl
        | some out => simp [Fields.update, hnumber, Function.comp_def]
      · have hvalid' : rest.Valid key := hvalid.resolve_left fun h => hnumber h.1
        have hfieldNumber : key.fieldNumber ≠ BitVec.ofNat 32 number := by
          intro heq
          have hlt := Fields.number_lt hrest _ (Fields.numbers_of_valid hvalid')
          exact hnumber (ofNat_inj_of_lt hlt hbound (key.fieldNumber_eq ▸ heq))
        rw [if_neg hfieldNumber, Fields.record_eq hrest hvalid' hnested.2 vs]
        cases readPayload key.wireType bs with
        | none => rfl
        | some out => simp [Fields.update, hnumber, Function.comp_def]

end

/-- On an input whose tags all fit, `decode` is the grammar. -/
theorem Fields.decode_eq_grammarDecode {fs : Fields} (hfs : fs.WellFormed) {bs : Bytes}
    (h : fs.EveryTag Fields.FitsAt bs) (v : fs.Value) : fs.decode bs v = fs.grammarDecode bs v :=
  Fields.decode_eq_of_follows
    (fun tail hstart key rest htag =>
      have hkey := h tail hstart key rest htag
      Fields.followsAt hkey.1 fun hvalid => Fields.record_eq hfs hvalid hkey.2) v

/-! ## Every tag -/

/-- `Q` implies `Q'` at the tags of a class, given `Q` in the sub-messages. -/
def Implies (Q Q' : Fields → Key → Bytes → Prop) : Prop :=
  ∀ fs key bs, fs.WellFormed → Q fs key bs → fs.Nested Q key bs → Q' fs key bs

mutual

theorem Field.Nested.imp {Q Q' : Fields → Key → Bytes → Prop} (hQ : Implies Q Q') :
    ∀ {field : Field} {wt : WireType} {bs : Bytes}, field.WellFormed →
      field.Nested Q wt bs → field.Nested Q' wt bs
  | .scalar _, _, _, _, _ => trivial
  | .repeatedScalar _ _, _, _, _, _ => trivial
  | .blob, _, _, _, _ => trivial
  | .repeatedBlob, _, _, _, _ => trivial
  | .message fs, _, _, hfs, h => fun hwt region rest hread tail hstart key bs htag =>
      have hkey := h hwt region rest hread tail hstart key bs htag
      ⟨hQ fs key bs hfs hkey.1 hkey.2, Fields.Nested.imp hQ hfs hkey.2⟩
  | .repeatedMessage fs, _, _, hfs, h => fun hwt region rest hread tail hstart key bs htag =>
      have hkey := h hwt region rest hread tail hstart key bs htag
      ⟨hQ fs key bs hfs hkey.1 hkey.2, Fields.Nested.imp hQ hfs hkey.2⟩

theorem Fields.Nested.imp {Q Q' : Fields → Key → Bytes → Prop} (hQ : Implies Q Q') :
    ∀ {fs : Fields} {key : Key} {bs : Bytes}, fs.WellFormed → fs.Nested Q key bs →
      fs.Nested Q' key bs
  | .nil, _, _, _, _ => trivial
  | .cons _ _ _, _, _, hfs, h =>
      ⟨fun hnumber => Field.Nested.imp hQ hfs.2.2.1 (h.1 hnumber),
        Fields.Nested.imp hQ hfs.2.2.2 h.2⟩

end

theorem Fields.EveryTag.imp {Q Q' : Fields → Key → Bytes → Prop} (hQ : Implies Q Q')
    {fs : Fields} (hfs : fs.WellFormed) {bs : Bytes} (h : fs.EveryTag Q bs) :
    fs.EveryTag Q' bs :=
  fun tail hstart key rest htag =>
    have hkey := h tail hstart key rest htag
    ⟨hQ fs key rest hfs hkey.1 hkey.2, Fields.Nested.imp hQ hfs hkey.2⟩

/-- The generated `decode` follows the grammar on an input: wherever a record
starts, it does with the bytes at hand what the grammar does, and skips them by
their wire type, changing nothing, if the record is not valid for its class; and
the input as a whole gives what the grammar gives. -/
def Fields.FollowsGrammar (fs : Fields) (bs : Bytes) : Prop :=
  fs.EveryTag (fun fs key bs => fs.FollowsAt key bs ∧ (¬ fs.Valid key → fs.Skips key bs)) bs ∧
    ∀ v, fs.decode bs v = fs.grammarDecode bs v

/-- A message of the protocol. -/
def switchCommandRequest : ProtoMessageDef where
  name := lit "SwitchCommandRequest"
  fields := [{ type := .scalar .fixed32, number := 1 }, { type := .scalar .bool, number := 2 },
    { type := .scalar .uint32, number := 3 }]

def switchCommandFields : Fields :=
  .cons 1 (.scalar .fixed32) (.cons 2 (.scalar .bool) (.cons 3 (.scalar .uint32) .nil))

theorem layout_switchCommandRequest : layout [] [switchCommandRequest] =
    some [(lit "SwitchCommandRequest", switchCommandFields)] := rfl

theorem numbersOk_switchCommandRequest : ∀ m ∈ [switchCommandRequest], m.NumbersOk := by
  intro m hm
  obtain rfl := List.mem_singleton.mp hm
  exact ⟨by decide, by decide, by decide⟩

end EsphomeApi.Proto
