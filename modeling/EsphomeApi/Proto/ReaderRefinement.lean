/-
EsphomeApi.Proto.ReaderRefinement — the reader with two pointers against the
codec, which reads lists.

A reader stands for the bytes between its pointers (`Reading.rest`), and what a
function of it returns for what its function in `Wire.lean` returns
(`Reading.view`). The reader keeps no members, so of a case of `decode` only
what is left is compared (`Reading.Refines`), and of a loop whether it returns
`true` (`Reading.Accepts`). `Fields.GeneratedFrom` says which class belongs to a
list of fields; the loop of `decode` then follows by induction on the fuel, with
the loops of the sub-messages, and `layout` makes classes of that kind.
-/
import EsphomeApi.Proto.CodecTheorems
import EsphomeApi.Proto.ReaderBounds

namespace EsphomeApi.Proto

open Library

/-! ## Bytes in memory -/

namespace Memory

variable {mem : Memory} {base m n : Nat}

/-- The `n` bytes from `base` on. -/
def bytes (mem : Memory) (base n : Nat) : Bytes := (List.range n).map fun i => mem (base + i)

@[simp] theorem length_bytes : (mem.bytes base n).length = n := by
  rw [bytes, List.length_map, List.length_range]

@[simp] theorem bytes_zero : mem.bytes base 0 = [] := rfl

theorem bytes_succ : mem.bytes base (n + 1) = mem base :: mem.bytes (base + 1) n := by
  rw [bytes, List.range_succ_eq_map, List.map_cons, List.map_map, Nat.add_zero]
  refine congrArg _ (List.map_congr_left fun i _ => ?_)
  rw [Function.comp_apply, Nat.succ_eq_add_one, Nat.add_assoc, Nat.add_comm 1 i]

theorem bytes_add : mem.bytes base (m + n) = mem.bytes base m ++ mem.bytes (base + m) n := by
  rw [bytes, List.range_add, List.map_append, List.map_map]
  refine congrArg _ (List.map_congr_left fun i _ => ?_)
  rw [Function.comp_apply, Nat.add_assoc]

theorem take_bytes (h : m ≤ n) : (mem.bytes base n).take m = mem.bytes base m := by
  obtain ⟨k, rfl⟩ := Nat.exists_eq_add_of_le h
  rw [bytes_add, List.take_left' length_bytes]

theorem drop_bytes (h : m ≤ n) : (mem.bytes base n).drop m = mem.bytes (base + m) (n - m) := by
  obtain ⟨k, rfl⟩ := Nat.exists_eq_add_of_le h
  rw [bytes_add, List.drop_left' length_bytes, Nat.add_sub_cancel_left]

end Memory

namespace Reading

variable {mem : Memory} {r r' : Reading} {fuel : Nat}

/-- The bytes that a reader has left. -/
def rest (mem : Memory) (r : Reading) : Bytes :=
  mem.bytes r.reader.ptr (r.reader.end_ - r.reader.ptr)

/-- What a function returns, as the codec has it. -/
def view {α : Type} (mem : Memory) (result : Option α × Reading) : Option (α × Bytes) :=
  result.1.map fun v => (v, result.2.rest mem)

/-- What a case leaves that returns `true`. -/
def left (mem : Memory) (result : Bool × Reading) : Option Bytes :=
  if result.1 then some (result.2.rest mem) else none

theorem left_succeeded {α : Type} (result : Option α × Reading) :
    left mem (succeeded result) = (view mem result).map Prod.snd := by
  obtain ⟨v | v, next⟩ := result <;> rfl

theorem rest_eof (h : r.reader.eof = true) : r.rest mem = [] := by
  have hend : r.reader.end_ ≤ r.reader.ptr := of_decide_eq_true h
  rw [rest, Nat.sub_eq_zero_of_le hend, Memory.bytes_zero]

theorem rest_cons (h : ¬ r.reader.eof = true) :
    r.rest mem = mem r.reader.ptr :: (r.take 1).rest mem := by
  have hbyte := ProtoReader.ptr_lt_of_not_eof h
  have hlen : r.reader.end_ - r.reader.ptr = r.reader.end_ - (r.reader.ptr + 1) + 1 := by omega
  rw [rest, hlen, Memory.bytes_succ]
  rfl

/-- Bytes that are passed are a prefix of what was left. -/
theorem take_rest (mem : Memory) {n : Nat} (h : r.reader.ptr + n ≤ r.reader.end_) :
    (r.rest mem).take n = r.bytesAt mem n ∧ (r.rest mem).drop n = (r.skip n).rest mem := by
  have hn : n ≤ r.reader.end_ - r.reader.ptr := by omega
  refine ⟨Memory.take_bytes hn, (Memory.drop_bytes hn).trans ?_⟩
  rw [Nat.sub_sub]
  rfl

/-! ## The functions of the reader -/

theorem varintLoop_view : ∀ (n shift : Nat) (result : BitVec 64) (r : Reading),
    view mem (r.varintLoop mem n shift result) = readVarintLoop n shift result (r.rest mem)
  | 0, _, _, _ => rfl
  | n + 1, shift, result, r => by
      unfold varintLoop
      split
      · rename_i heof
        rw [rest_eof heof]
        rfl
      · rename_i heof
        rw [rest_cons heof, readVarintLoop]
        dsimp only
        split
        · rfl
        · exact varintLoop_view n (shift + 7) _ (r.take 1)

theorem varint_view : view mem (r.varint mem) = readVarint (r.rest mem) :=
  varintLoop_view 10 0 0 r

theorem fixed_view {w bytes : Nat} (h : r.reader.ptr ≤ r.reader.end_) :
    view mem (r.fixed mem w bytes) = readFixed w bytes (r.rest mem) := by
  have hlength : (r.rest mem).length = r.reader.end_ - r.reader.ptr := Memory.length_bytes
  unfold fixed readFixed ProtoReader.distance
  split
  · rename_i hshort
    rw [if_pos (by omega)]
    rfl
  · rename_i hfits
    obtain ⟨htake, hdrop⟩ := take_rest mem (r := r) (n := bytes) (by omega)
    rw [if_neg (by omega), htake, hdrop]
    rfl

/-- A reader at work: the pointers in order, their distance in 64 bits and less
than the fuel, and no error so far. -/
structure Ready (fuel : Nat) (r : Reading) : Prop where
  ptr_le : r.reader.ptr ≤ r.reader.end_
  distance_lt : r.reader.end_ < r.reader.ptr + 2 ^ 64
  fuel_lt : r.reader.end_ < r.reader.ptr + fuel
  ok : r.reader.ok = true

theorem Ready.after {k : Nat} (h : r.Ready (fuel + k)) (hgoes : r.Goes r') (hclean : r.Clean r')
    (hptr : r.reader.ptr + k ≤ r'.reader.ptr) : r'.Ready fuel := by
  have hdistance := h.distance_lt
  have hfuel := h.fuel_lt
  have hend := hgoes.end_eq
  exact ⟨hgoes.ptr_end.trans hend.ge, by omega, by omega, hclean.ok_eq.trans h.ok⟩

theorem regionLength_view (h : r.Ready fuel) :
    readLengthDelimited (r.rest mem) = (r.regionLength mem).1.map fun len =>
      ((r.regionLength mem).2.bytesAt mem len, ((r.regionLength mem).2.skip len).rest mem) := by
  have hvarint := varint_spec mem h.ptr_le
  have hview : readVarint (r.rest mem) = view mem (r.varint mem) := varint_view.symm
  rw [readLengthDelimited, hview]
  unfold regionLength
  generalize r.varint mem = result at hvarint
  obtain ⟨len | len, next⟩ := result
  · rfl
  · have hnext : next.Ready fuel :=
      h.after (k := 0) hvarint.goes (hvarint.clean rfl) hvarint.goes.ptr_le
    have hptr := hnext.ptr_le
    have hdistance := hnext.distance_lt
    have hlength : (next.rest mem).length = next.reader.end_ - next.reader.ptr :=
      Memory.length_bytes
    have hlen : BitVec.ofInt 64 next.reader.distance < len ↔
        (next.rest mem).length < len.toNat := by
      rw [BitVec.lt_def, BitVec.toNat_ofInt, ProtoReader.distance, hlength]
      omega
    dsimp only [view, Option.map_some, Option.bind_some]
    by_cases hfits : (next.rest mem).length < len.toNat
    · rw [if_pos hfits, if_pos (hlen.mpr hfits)]
      rfl
    · obtain ⟨htake, hdrop⟩ := take_rest mem (r := next) (n := len.toNat) (by omega)
      rw [if_neg hfits, if_neg (mt hlen.mp hfits), htake, hdrop]
      rfl

theorem lengthDelimited_view (h : r.Ready fuel) :
    view mem (r.lengthDelimited mem) = readLengthDelimited (r.rest mem) := by
  rw [regionLength_view h]
  unfold lengthDelimited
  generalize r.regionLength mem = result
  obtain ⟨len | len, next⟩ := result <;> rfl

/-- A sub-reader stands for the region. -/
theorem subReader_view (mem : Memory) (h : r.Ready fuel) :
    readLengthDelimited (r.rest mem) = (r.subReader mem).1.map fun sub =>
      (mem.bytes sub.ptr (sub.end_ - sub.ptr), (r.subReader mem).2.rest mem) := by
  rw [regionLength_view h]
  unfold subReader
  generalize r.regionLength mem = result
  obtain ⟨len | len, next⟩ := result
  · rfl
  · simp only [Option.map_some, Nat.add_sub_cancel_left]
    rfl

theorem skipField_left (wt : WireType) (h : r.Ready fuel) :
    left mem (r.skipField mem wt) = Proto.skipField wt (r.rest mem) := by
  unfold skipField Proto.skipField
  split
  · rw [left_succeeded, varint_view]
  split
  · rw [left_succeeded, fixed_view h.ptr_le, readFixed64]
  split
  · rw [left_succeeded, fixed_view h.ptr_le, readFixed32]
  split
  · rw [regionLength_view h]
    generalize r.regionLength mem = result
    obtain ⟨len | len, next⟩ := result <;> rfl
  · rfl

theorem readRaw_left (type : ScalarType) (h : r.Ready fuel) :
    left mem (r.readRaw mem type) = (readValue type (r.rest mem)).map Prod.snd := by
  have hvarint : left mem (succeeded (r.varint mem)) =
      (readVarint (r.rest mem)).map Prod.snd := by
    rw [left_succeeded, varint_view]
  have hconverted : ∀ {α : Type} (f : BitVec 64 → α), left mem (succeeded (r.varint mem)) =
      ((readVarint (r.rest mem)).map fun out => (f out.1, out.2)).map Prod.snd := by
    intro α f
    rw [Option.map_map]
    exact hvarint
  have hfixed32 : left mem (succeeded (r.fixed mem 32 4)) =
      (readFixed32 (r.rest mem)).map Prod.snd := by
    rw [left_succeeded, fixed_view h.ptr_le, readFixed32]
  have hfixed64 : left mem (succeeded (r.fixed mem 64 8)) =
      (readFixed64 (r.rest mem)).map Prod.snd := by
    rw [left_succeeded, fixed_view h.ptr_le, readFixed64]
  cases type with
  | double => exact hfixed64
  | fixed64 => exact hfixed64
  | sfixed64 => exact hfixed64
  | float => exact hfixed32
  | fixed32 => exact hfixed32
  | sfixed32 => exact hfixed32
  | int64 => exact hvarint
  | uint64 => exact hvarint
  | int32 => exact hconverted fun v => v.setWidth 32
  | uint32 => exact hconverted fun v => v.setWidth 32
  | sint32 => exact hconverted fun v => zigzagDecode (v.setWidth 32)
  | sint64 => exact hconverted zigzagDecode
  | bool => exact hconverted fun v => v != 0#64
  | enum => exact hconverted fun v => v.setWidth 32

theorem readTag_view : view mem (r.readTag mem) = Proto.readTag (r.rest mem) := by
  have hview : readVarint (r.rest mem) = view mem (r.varint mem) := varint_view.symm
  unfold readTag Proto.readTag
  split
  · rename_i heof
    rw [rest_eof heof]
    rfl
  · rw [hview]
    generalize r.varint mem = result
    obtain ⟨word | word, next⟩ := result <;> rfl

/-- Where there are bytes, a tag that cannot be read leaves the error. -/
theorem readTag_failed (mem : Memory) (h : r.reader.ptr ≤ r.reader.end_)
    (heof : ¬ r.reader.eof = true) (hnone : (r.readTag mem).1 = none) :
    (r.readTag mem).2.reader.ok = false := by
  have hvarint := varint_spec mem h
  unfold readTag at hnone ⊢
  rw [if_neg heof] at hnone ⊢
  generalize r.varint mem = result at hvarint hnone
  obtain ⟨word | word, next⟩ := result
  · exact hvarint.failed rfl
  · exact nomatch hnone

/-! ## Cases and loops -/

/-- A case of `decode` leaves what the codec leaves. -/
def Refines {τ : Type} (mem : Memory) (fuel : Nat) (body : Reading → Option (Bool × Reading))
    (read : Bytes → τ → Option (Bytes × τ)) : Prop :=
  ∀ r : Reading, r.Ready fuel → ∀ result, body r = some result →
    ∀ v, (read (r.rest mem) v).map Prod.fst = left mem result

/-- A loop returns `true` for what the codec accepts. -/
def Accepts {τ : Type} (mem : Memory) (fuel : Nat) (body : Reading → Option (Bool × Reading))
    (decode : Bytes → τ → Option τ) : Prop :=
  ∀ r : Reading, r.Ready fuel → ∀ result, body r = some result →
    ∀ v, (decode (r.rest mem) v).isSome = result.1

/-- What a case of the codec gives, by what is left. -/
theorem of_left {τ : Type} {out : Option (Bytes × τ)} {result : Bool × Reading}
    (h : out.map Prod.fst = left mem result) :
    (result.1 = false → out = none) ∧
      (result.1 = true → ∃ v, out = some (result.2.rest mem, v)) := by
  obtain ⟨done, next⟩ := result
  constructor
  · rintro rfl
    exact Option.map_eq_none_iff.mp h
  · rintro rfl
    obtain ⟨⟨rest, v⟩, hout, hrest⟩ := Option.map_eq_some_iff.mp h
    obtain rfl : rest = next.rest mem := hrest
    exact ⟨v, hout⟩

/-- The region of a loop, and what is behind it. -/
theorem Accepts.withSub {σ τ : Type} {body : Reading → Option (Bool × Reading)}
    {decode : Bytes → σ → Option σ} (h : Accepts mem fuel body decode) (init : τ → σ)
    (store : τ → σ → τ) :
    Refines mem fuel (fun r => r.withSub mem body) fun bs v =>
      (readLengthDelimited bs).bind fun out =>
        (decode out.1 (init v)).map fun w => (out.2, store v w) := by
  intro r hr result hresult v
  have hview := subReader_view mem hr
  obtain ⟨hsub, hregion⟩ := subReader_spec mem hr.ptr_le
  dsimp only
  rw [hview]
  simp only [Reading.withSub] at hresult
  generalize r.subReader mem = subResult at hsub hregion hresult
  obtain ⟨sub | sub, next⟩ := subResult
  · obtain rfl := Option.some_inj.mp hresult
    rfl
  · obtain ⟨hlow, hsome, hhigh, hok⟩ := hregion sub rfl
    obtain ⟨inner, hinner, rfl⟩ := Option.map_eq_some_iff.mp hresult
    have hdistance := hr.distance_lt
    have hfuel := hr.fuel_lt
    have hready : Ready fuel { reader := sub, log := next.log } :=
      ⟨hsome, by dsimp only; omega, by dsimp only; omega, hok⟩
    have haccepts : (decode (mem.bytes sub.ptr (sub.end_ - sub.ptr)) (init v)).isSome = inner.1 :=
      h _ hready inner hinner (init v)
    have hleft : left mem (next.resume inner) =
        if inner.1 then some (next.rest mem) else none := rfl
    rw [hleft, ← haccepts, Option.map_some, Option.bind_some]
    cases decode (mem.bytes sub.ptr (sub.end_ - sub.ptr)) (init v) <;> rfl

theorem readElement_refines (mem : Memory) (type : ScalarType) :
    Refines mem fuel (fun r => some (r.readRaw mem type)) (readElement type) := by
  intro r hr result hresult vs
  obtain rfl := Option.some_inj.mp hresult
  rw [readRaw_left type hr, readElement, Option.map_map]
  rfl

/-- The loop over a packed field. -/
theorem packedLoop_accepts (type : ScalarType) :
    ∀ fuel, Accepts mem fuel (packedLoop mem type fuel) (consume (readElement type))
  | 0 => fun _ _ _ h => nomatch h
  | fuel + 1 => by
      intro r hr result hresult vs
      unfold packedLoop at hresult
      split at hresult
      · rename_i heof
        obtain rfl := Option.some_inj.mp hresult
        rw [rest_eof heof, consume_nil, Option.isSome_some]
        exact hr.ok.symm
      · rename_i heof
        have hne : r.rest mem ≠ [] := by
          rw [rest_cons heof]
          exact List.cons_ne_nil _ _
        have hraw := readRaw_spec mem type hr.ptr_le
        have hadvances := readRaw_advances mem type (ProtoReader.ptr_lt_of_not_eof heof)
        have hturn := readElement_refines mem type r hr _ rfl vs
        rw [consume_of_ne_nil (readElement_shrinks type) hne]
        generalize r.readRaw mem type = turn at hraw hadvances hturn hresult
        obtain ⟨done, next⟩ := turn
        obtain ⟨hstop, hgo⟩ := of_left hturn
        cases done with
        | false =>
            obtain rfl := Option.some_inj.mp hresult
            rw [hstop rfl]
            rfl
        | true =>
            obtain ⟨ws, hws⟩ := hgo rfl
            have hless : r.reader.ptr < next.reader.ptr :=
              hadvances.resolve_right fun hfailed => Bool.noConfusion hfailed.1
            have hnext : next.Ready fuel := hr.after hraw.goes (hraw.clean rfl) hless
            rw [hws, Option.bind_some]
            exact packedLoop_accepts type fuel
              (next.note (.elementTurn type r.reader.ptr next.reader.ptr next.reader.end_))
              ⟨hnext.ptr_le, hnext.distance_lt, hnext.fuel_lt, hnext.ok⟩ result hresult ws

end Reading

/-! ## Classes and their fields -/

mutual

/-- The member is what the field is made into. -/
def Field.GeneratedFrom (S : Schema) : Field → ProtoField → Prop
  | .scalar type, f => f.type = .scalar type ∧ f.repeated = false
  | .repeatedScalar type _, f => f.type = .scalar type ∧ f.repeated = true
  | .blob, f => f.type = .string ∨ f.type = .bytes
  | .repeatedBlob, f => f.type = .string ∨ f.type = .bytes
  | .message fs, f => f.type = .message ∧ fs.GeneratedFrom S (S f.typeName)
  | .repeatedMessage fs, f => f.type = .message ∧ fs.GeneratedFrom S (S f.typeName)

/-- The class has a member for each field, in their order. -/
def Fields.GeneratedFrom (S : Schema) : Fields → List ProtoField → Prop
  | .nil, [] => True
  | .cons number field rest, f :: fields =>
      number = f.number ∧ field.GeneratedFrom S f ∧ rest.GeneratedFrom S fields
  | _, _ => False

end

namespace Reading

variable {mem : Memory} {S : Schema} {fuel : Nat}
  {decode : CString → Reading → Option (Bool × Reading)}
  (hdecode : ∀ (name : CString) (fs : Fields), fs.GeneratedFrom S (S name) →
    Accepts mem fuel (decode name) fs.decode)

theorem blob_refines (mem : Memory) {τ : Type} (store : τ → Bytes → τ) :
    Refines mem fuel (fun r => some (succeeded (r.lengthDelimited mem))) fun bs v =>
      (readLengthDelimited bs).map fun out => (out.2, store v out.1) := by
  intro r hr result hresult v
  obtain rfl := Option.some_inj.mp hresult
  rw [left_succeeded, lengthDelimited_view hr, Option.map_map]
  rfl

include hdecode

theorem decodeField_refines {f : ProtoField} {field : Field} (wt : WireType)
    (hfield : field.GeneratedFrom S f) :
    Refines mem fuel (decodeField mem decode fuel f wt) (field.decode wt) := by
  cases field with
  | scalar type =>
    obtain ⟨htype, hsingular⟩ := hfield
    intro r hr result hresult v
    rw [decodeField, htype] at hresult
    simp only [hsingular, Bool.false_eq_true, false_and, if_false, Option.some_inj] at hresult
    subst hresult
    rw [readRaw_left type hr, Field.decode, Option.map_map]
    rfl
  | repeatedScalar type packed =>
    obtain ⟨htype, hrepeated⟩ := hfield
    intro r hr result hresult vs
    rw [decodeField, htype] at hresult
    simp only [hrepeated, true_and] at hresult
    rw [Field.decode]
    split at hresult
    · rename_i hwt
      rw [if_pos hwt]
      exact (packedLoop_accepts type fuel).withSub (fun vs => vs) (fun _ ws => ws) r hr result
        hresult vs
    · rename_i hwt
      rw [if_neg hwt]
      exact readElement_refines mem type r hr result hresult vs
  | blob =>
    intro r hr result hresult v
    have hblob := blob_refines mem (fun (_ v : Bytes) => v) r hr result
    rcases hfield with htype | htype <;> rw [decodeField, htype] at hresult <;>
      exact hblob hresult v
  | repeatedBlob =>
    intro r hr result hresult vs
    have hblob := blob_refines mem (fun (vs : List Bytes) v => vs ++ [v]) r hr result
    rcases hfield with htype | htype <;> rw [decodeField, htype] at hresult <;>
      exact hblob hresult vs
  | message fs =>
    obtain ⟨htype, hfs⟩ := hfield
    intro r hr result hresult v
    rw [decodeField, htype] at hresult
    exact (hdecode f.typeName fs hfs).withSub (fun v : Option fs.Value => v.getD fs.fresh)
      (fun _ w => some w) r hr result hresult v
  | repeatedMessage fs =>
    obtain ⟨htype, hfs⟩ := hfield
    intro r hr result hresult vs
    rw [decodeField, htype] at hresult
    exact (hdecode f.typeName fs hfs).withSub (fun _ : List fs.Value => fs.fresh)
      (fun vs w => vs ++ [w]) r hr result hresult vs

/-- The `switch`, by the members of the class. -/
theorem decodeRecord_refines (key : Key) : ∀ {fields : List ProtoField} {fs : Fields},
    fs.GeneratedFrom S fields →
    Refines mem fuel (decodeRecord mem decode fuel fields key) (fs.record key)
  | [], .nil, _ => by
      intro r hr result hresult v
      obtain rfl := Option.some_inj.mp hresult
      rw [skipField_left key.wireType hr, Fields.record, Option.map_map]
      exact congrFun Option.map_id _
  | f :: fields, .cons number field rest, h => by
      obtain ⟨rfl, hfield, hrest⟩ := h
      intro r hr result hresult v
      rw [decodeRecord, List.find?_cons] at hresult
      rw [Fields.record]
      by_cases hnumber : key.fieldNumber = BitVec.ofNat 32 f.number
      · rw [if_pos hnumber, Option.map_map]
        simp only [hnumber, decide_true] at hresult
        exact decodeField_refines hdecode key.wireType hfield r hr result hresult v.1
      · rw [if_neg hnumber, Option.map_map]
        simp only [hnumber, decide_false] at hresult
        exact decodeRecord_refines key hrest r hr result hresult v.2

end Reading

open Reading

/-- The loop of `decode` returns `true` for what the codec accepts. -/
theorem decodeLoop_accepts (mem : Memory) (S : Schema) :
    ∀ (fuel : Nat) (name : CString) (fs : Fields), fs.GeneratedFrom S (S name) →
      Accepts mem fuel (decodeLoop mem S fuel name) fs.decode
  | 0, _, _, _ => fun _ _ _ h => nomatch h
  | fuel + 1, name, fs, hfs => by
      intro r hr result hresult v
      simp only [decodeLoop] at hresult
      by_cases heof : r.reader.eof = true
      · have hnone : r.readTag mem = (none, r) := by rw [Reading.readTag, if_pos heof]
        rw [hnone] at hresult
        obtain rfl := Option.some_inj.mp hresult
        rw [rest_eof heof, Fields.decode, consume_nil, Option.isSome_some]
        exact hr.ok.symm
      have hne : r.rest mem ≠ [] := by
        rw [rest_cons heof]
        exact List.cons_ne_nil _ _
      have hfailed := readTag_failed mem hr.ptr_le heof
      obtain ⟨hgoes, -, hsome⟩ := readTag_spec mem hr.ptr_le
      rw [Fields.decode, consume_of_ne_nil fs.step_shrinks hne, decodeStep, ← readTag_view]
      generalize r.readTag mem = tag at hfailed hgoes hsome hresult
      obtain ⟨key | key, tagged⟩ := tag
      · obtain rfl := Option.some_inj.mp hresult
        exact (hfailed rfl).symm
      · obtain ⟨hclean, hless⟩ := hsome key rfl
        have htagged : tagged.Ready fuel := hr.after hgoes hclean hless
        obtain ⟨⟨done, next⟩, hrecord, hnext, hdone⟩ :=
          decodeRecord_ends mem (decodeLoop_ends mem S fuel) (S name) key tagged
            htagged.ptr_le htagged.fuel_lt htagged.ok
        obtain ⟨hstop, hgo⟩ := of_left
          (decodeRecord_refines (decodeLoop_accepts mem S fuel) key hfs tagged htagged _ hrecord v)
        simp only [hrecord] at hresult
        simp only [view, Option.map_some, Option.bind_some]
        cases done with
        | false =>
            obtain rfl := Option.some_inj.mp hresult
            rw [hstop rfl]
            rfl
        | true =>
            obtain ⟨w, hw⟩ := hgo rfl
            have hready : next.Ready fuel :=
              htagged.after (k := 0) hnext (hdone rfl) hnext.ptr_le
            rw [hw, Option.bind_some]
            exact decodeLoop_accepts mem S fuel name fs hfs
              (next.note (.fieldTurn r.reader.ptr next.reader.ptr))
              ⟨hready.ptr_le, hready.distance_lt, hready.fuel_lt, hready.ok⟩ result hresult w

/-! ## The classes of a file -/

section Layout

variable {S : Schema} {classes : Classes}
  (hclasses : ∀ name fs, classes.lookup name = some fs → fs.GeneratedFrom S (S name))

include hclasses

theorem member_generatedFrom {f : ProtoField} {field : Field}
    (h : f.member classes = some field) : field.GeneratedFrom S f := by
  unfold ProtoField.member at h
  split at h
  · rename_i htype
    obtain rfl := Option.some_inj.mp h
    split
    · rename_i hrepeated
      exact ⟨htype, hrepeated⟩
    · rename_i hsingular
      exact ⟨htype, Bool.eq_false_iff.mpr hsingular⟩
  · rename_i htype
    obtain rfl := Option.some_inj.mp h
    split <;> exact .inl htype
  · rename_i htype
    obtain rfl := Option.some_inj.mp h
    split <;> exact .inr htype
  · rename_i htype
    obtain ⟨fs, hlookup, rfl⟩ := Option.map_eq_some_iff.mp h
    split <;> exact ⟨htype, hclasses f.typeName fs hlookup⟩

theorem members_generatedFrom : ∀ {fields : List ProtoField} {fs : Fields},
    members classes fields = some fs → fs.GeneratedFrom S fields
  | [], fs, h => by
      obtain rfl := Option.some_inj.mp h
      trivial
  | f :: fields, fs, h => by
      unfold members at h
      split at h
      · rename_i field rest hfield hrest
        obtain rfl := Option.some_inj.mp h
        exact ⟨rfl, member_generatedFrom hclasses hfield, members_generatedFrom hrest⟩
      · exact nomatch h

end Layout

/-- The first message of a name gives its fields. -/
theorem fileSchema_append {before ms : List ProtoMessageDef} {m : ProtoMessageDef}
    (hfresh : ∀ m' ∈ before, ¬ m'.name = m.name) :
    fileSchema (before ++ m :: ms) m.name = m.sortedFields := by
  have hnone : before.find? (fun m' => m'.name = m.name) = none :=
    List.find?_eq_none.mpr fun m' hmem => by simpa using hfresh m' hmem
  have hfirst : (m :: ms).find? (fun m' => m'.name = m.name) = some m :=
    List.find?_cons_of_pos (decide_eq_true rfl)
  rw [fileSchema, List.find?_append, hnone, Option.none_or, hfirst]
  rfl

/-- Of two messages with one name, the class and the schema are those of the first. -/
theorem layout_generatedFrom {file : List ProtoMessageDef} :
    ∀ (before ms : List ProtoMessageDef) (classes classes' : Classes), file = before ++ ms →
      classes.map Prod.fst = before.map ProtoMessageDef.name →
      (∀ name fs, classes.lookup name = some fs →
        fs.GeneratedFrom (fileSchema file) (fileSchema file name)) →
      layout classes ms = some classes' → ∀ name fs, classes'.lookup name = some fs →
        fs.GeneratedFrom (fileSchema file) (fileSchema file name)
  | before, [], classes, classes', _, _, hclasses, h => Option.some_inj.mp h ▸ hclasses
  | before, m :: ms, classes, classes', hfile, hnames, hclasses, h => by
      unfold layout at h
      split at h
      · rename_i fields hfields
        refine layout_generatedFrom (before ++ [m]) ms _ classes' ?_ ?_ ?_ h
        · rw [hfile, List.append_assoc, List.singleton_append]
        · rw [List.map_append, List.map_append, hnames]
          rfl
        · intro name fs hlookup
          rw [List.lookup_append] at hlookup
          cases hold : classes.lookup name with
          | some fs' =>
              rw [hold] at hlookup
              exact hclasses name fs (hold.trans hlookup)
          | none =>
              rw [hold, Option.none_or, List.lookup_cons, List.lookup_nil] at hlookup
              split at hlookup
              · rename_i heq
                obtain rfl : name = m.name := eq_of_beq heq
                obtain rfl := Option.some_inj.mp hlookup
                have hfresh : ∀ m' ∈ before, ¬ m'.name = m.name := by
                  intro m' hmem hsame
                  have hlisted : m'.name ∈ classes.map Prod.fst :=
                    hnames ▸ List.mem_map_of_mem hmem
                  obtain ⟨c, hc, hcname⟩ := List.mem_map.mp hlisted
                  exact absurd (hcname.trans hsame).symm
                    (by simpa using List.lookup_eq_none_iff.mp hold c hc)
                rw [hfile, fileSchema_append hfresh]
                exact members_generatedFrom (hfile ▸ hclasses) hfields
              · exact nomatch hlookup
      · exact nomatch h

/-- `decode` of a range of memory returns `true` for the bytes that the codec
accepts, for each class of a file. -/
theorem decodeRange_refines {file : List ProtoMessageDef} {classes : Classes} {name : CString}
    {fs : Fields} (hlayout : layout [] file = some classes) (hname : classes.lookup name = some fs)
    (mem : Memory) (base : Nat) {size : Nat} (hsize : size < 2 ^ 64) (v : fs.Value) :
    ∃ r, decodeRange mem (fileSchema file) name base size =
      some ((fs.decode (mem.bytes base size) v).isSome, r) := by
  have hfs : fs.GeneratedFrom (fileSchema file) (fileSchema file name) :=
    layout_generatedFrom [] file [] classes rfl rfl (fun _ _ h => nomatch h) hlayout name fs hname
  have hready : Ready (size + 1) { reader := { ptr := base, end_ := base + size } } :=
    ⟨Nat.le_add_right base size, Nat.add_lt_add_left hsize base,
      Nat.lt_succ_self (base + size), rfl⟩
  obtain ⟨⟨done, r⟩, hdecode, -, -⟩ := decodeLoop_ends mem (fileSchema file) (size + 1) name _
    hready.ptr_le hready.fuel_lt hready.ok
  have haccepts := decodeLoop_accepts mem (fileSchema file) (size + 1) name fs hfs _ hready _
    hdecode v
  have hrest : rest mem { reader := { ptr := base, end_ := base + size } } =
      mem.bytes base size := by
    rw [rest, Nat.add_sub_cancel_left]
  rw [hrest] at haccepts
  exact ⟨r, by rw [haccepts]; exact hdecode⟩

end EsphomeApi.Proto
