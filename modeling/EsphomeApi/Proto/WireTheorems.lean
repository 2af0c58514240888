/-
EsphomeApi.Proto.WireTheorems — what the reader makes of what the writer
wrote, and how much each reading function leaves.
-/
import EsphomeApi.Proto.Wire

namespace EsphomeApi.Proto

open Library

/-! ## Varints -/

theorem toNat_lowByte {w : Nat} (v : BitVec w) : (lowByte v).toNat = v.toNat % 256 := by
  rw [lowByte, UInt8.toNat_ofBitVec, BitVec.toNat_setWidth]

theorem writeVarintLoop_eq : ∀ (fuel : Nat) (v : BitVec 64), v.toNat < 128 ^ (fuel + 1) →
    writeVarintLoop fuel v = Leb128.encode v.toNat
  | 0, v, h => by
      rw [writeVarintLoop, Leb128.encode_of_lt (by simpa using h), List.singleton_inj,
        ← UInt8.toNat_inj, toNat_lowByte, UInt8.toNat_ofNat']
  | fuel + 1, v, h => by
      by_cases hv : 0x80#64 ≤ v
      · have hge : 128 ≤ v.toNat := by simpa [BitVec.le_def] using hv
        have hshift : (v >>> 7).toNat = v.toNat / 128 := by
          rw [BitVec.toNat_ushiftRight, Nat.shiftRight_eq_div_pow]
        have hlt : (v >>> 7).toNat < 128 ^ (fuel + 1) := by
          rw [hshift, Nat.div_lt_iff_lt_mul (by decide), ← Nat.pow_succ]
          exact h
        rw [writeVarintLoop, if_pos hv, Leb128.encode_of_ge hge, writeVarintLoop_eq fuel _ hlt,
          hshift, List.cons.injEq]
        refine ⟨?_, rfl⟩
        rw [← UInt8.toNat_inj, Leb128.toNat_or_continue, toNat_lowByte, UInt8.toNat_ofNat']
        omega
      · have hlt : v.toNat < 128 := by simpa [BitVec.le_def] using hv
        rw [writeVarintLoop, if_neg hv, Leb128.encode_of_lt hlt, List.singleton_inj,
          ← UInt8.toNat_inj, toNat_lowByte, UInt8.toNat_ofNat']

/-- `ProtoWriter::varint` writes the base-128 form of the word. -/
theorem writeVarint_eq (v : BitVec 64) : writeVarint v = Leb128.encode v.toNat :=
  writeVarintLoop_eq 9 v (Nat.lt_trans v.isLt (by decide))

/-- Reading one more digit, on bit vectors. -/
theorem toNat_or_digit (acc : BitVec 64) (b : UInt8) (shift : Nat) (hs : shift < 64)
    (hacc : acc.toNat < 2 ^ shift) :
    (acc ||| ((b &&& 0x7F).toBitVec.setWidth 64 <<< shift)).toNat =
      acc.toNat + b.toNat % 128 * 2 ^ shift % 2 ^ 64 := by
  have hdigit : (b &&& 0x7F).toBitVec.toNat = b.toNat % 128 := Leb128.toNat_and_digit b
  have hsmall : b.toNat % 128 < 2 ^ 64 := by omega
  rw [BitVec.toNat_or, BitVec.toNat_shiftLeft, BitVec.toNat_setWidth, hdigit,
    Nat.mod_eq_of_lt hsmall]
  exact Leb128.or_shiftLeft_mod acc.toNat _ hs hacc

/-- What the loop makes of the digits that are left. -/
theorem readVarintLoop_eq : ∀ (n shift : Nat) (result : BitVec 64) (bs : Bytes),
    shift + 7 * n = 70 → result.toNat < 2 ^ shift →
    readVarintLoop n shift result bs =
      match Leb128.decode n bs with
      | .done v rest => some (BitVec.ofNat 64 (result.toNat + v * 2 ^ shift), rest)
      | _ => none
  | 0, _, _, _, _, _ => rfl
  | _ + 1, _, _, [], _, _ => rfl
  | n + 1, shift, result, b :: bs, hshift, hresult => by
      have hor := toNat_or_digit result b shift (by omega) hresult
      have hpow : 2 ^ (shift + 7) = 2 ^ shift * 128 := Nat.pow_add 2 shift 7
      rw [readVarintLoop]
      by_cases hb : b.toNat < 128
      · rw [if_pos ((Leb128.and_continue_eq_zero b).mpr hb), Leb128.decode_cons_last hb]
        rw [Nat.mod_eq_of_lt hb] at hor
        refine congrArg (fun word => some (word, bs)) (BitVec.eq_of_toNat_eq ?_)
        have hlt := (result ||| ((b &&& 0x7F).toBitVec.setWidth 64 <<< shift)).isLt
        rw [hor] at hlt ⊢
        rw [BitVec.toNat_ofNat, ← Nat.add_mod_mod, Nat.mod_eq_of_lt hlt]
      · have hmore : ¬ b &&& 0x80 = 0 := fun h => hb ((Leb128.and_continue_eq_zero b).mp h)
        have hdigit : b.toNat % 128 * 2 ^ shift ≤ 127 * 2 ^ shift :=
          Nat.mul_le_mul_right _ (by omega)
        have hmod := Nat.mod_le (b.toNat % 128 * 2 ^ shift) (2 ^ 64)
        rw [if_neg hmore, Leb128.decode_cons_more (by omega),
          readVarintLoop_eq n (shift + 7) _ bs (by omega) (by omega), hor]
        cases Leb128.decode n bs with
        | incomplete => rfl
        | overflow => rfl
        | done v rest =>
            refine congrArg (fun word => some (word, rest)) (BitVec.eq_of_toNat_eq ?_)
            have hval : (b.toNat % 128 + 128 * v) * 2 ^ shift =
                b.toNat % 128 * 2 ^ shift + v * 2 ^ (shift + 7) := by
              rw [hpow, Nat.add_mul, Nat.mul_comm 128 v, Nat.mul_assoc, Nat.mul_comm 128]
            rw [BitVec.toNat_ofNat, BitVec.toNat_ofNat, hval, ← Nat.add_assoc]
            omega

/-- `ProtoReader::varint` reads a base-128 number of at most ten digits and
keeps its low 64 bits. -/
theorem readVarint_eq (bs : Bytes) :
    readVarint bs = match Leb128.decode 10 bs with
      | .done v rest => some (BitVec.ofNat 64 v, rest)
      | _ => none := by
  rw [readVarint, readVarintLoop_eq 10 0 0 bs rfl (by decide)]
  cases Leb128.decode 10 bs <;> simp

theorem readVarint_writeVarint (v : BitVec 64) (rest : Bytes) :
    readVarint (writeVarint v ++ rest) = some (v, rest) := by
  have hlt : v.toNat < 128 ^ (9 + 1) := Nat.lt_trans v.isLt (by decide)
  rw [readVarint_eq, writeVarint_eq, Leb128.decode_encode 9 v.toNat rest hlt]
  simp only [BitVec.ofNat_toNat, BitVec.setWidth_eq]

theorem writeVarint_ne_nil (v : BitVec 64) : writeVarint v ≠ [] := by
  rw [writeVarint_eq]
  exact Leb128.encode_ne_nil v.toNat

theorem readVarint_length {bs rest : Bytes} {v : BitVec 64}
    (h : readVarint bs = some (v, rest)) : rest.length < bs.length := by
  rw [readVarint_eq] at h
  cases hdecode : Leb128.decode 10 bs with
  | incomplete => simp only [hdecode, reduceCtorEq] at h
  | overflow => simp only [hdecode, reduceCtorEq] at h
  | done u tail =>
      simp only [hdecode, Option.some_inj, Prod.mk.injEq] at h
      exact h.2 ▸ Leb128.decode_done_length hdecode

/-- `varint_size` counts the bytes of `varint`. -/
theorem varintSize_eq (v : BitVec 64) : varintSize v = (writeVarint v).length := by
  have hloop : ∀ (fuel : Nat) (v : BitVec 64),
      varintSizeLoop fuel v = (writeVarintLoop fuel v).length := by
    intro fuel
    induction fuel with
    | zero => exact fun _ => rfl
    | succ fuel ih =>
        intro v
        unfold varintSizeLoop writeVarintLoop
        split
        · rw [ih, List.length_cons]
        · rfl
  exact hloop 9 v

/-! ## Fixed-width words -/

theorem getLsbD_byteAt {w : Nat} (v : BitVec w) (i k : Nat) (hk : k < w) :
    (byteAt w (lowByte (v >>> (8 * i))) i).getLsbD k =
      (decide (8 * i ≤ k ∧ k < 8 * (i + 1)) && v.getLsbD k) := by
  rw [byteAt, BitVec.getLsbD_shiftLeft, decide_eq_true hk, Bool.true_and]
  by_cases hge : 8 * i ≤ k
  · have hnot : decide (k < 8 * i) = false := decide_eq_false (by omega)
    have hbit : 8 * i + (k - 8 * i) = k := by omega
    rw [hnot, Bool.not_false, Bool.true_and, BitVec.getLsbD_setWidth, decide_eq_true (by omega),
      Bool.true_and, lowByte, UInt8.toBitVec_ofBitVec, BitVec.getLsbD_setWidth,
      BitVec.getLsbD_ushiftRight, hbit]
    congr 1
    exact decide_eq_decide.mpr (by omega)
  · rw [decide_eq_true (show k < 8 * i by omega), Bool.not_true, Bool.false_and,
      decide_eq_false (fun h => hge h.1), Bool.false_and]

/-- The bytes from place `i` on give back the bits from place `i` on. -/
theorem getLsbD_wordOfBytes {w : Nat} (v : BitVec w) : ∀ (n i k : Nat), k < w →
    (wordOfBytes w i ((List.range' i n).map fun j => lowByte (v >>> (8 * j)))).getLsbD k =
      (decide (8 * i ≤ k ∧ k < 8 * (i + n)) && v.getLsbD k)
  | 0, i, k, _ => by
      rw [List.range'_zero, List.map_nil, wordOfBytes, decide_eq_false (by omega), Bool.false_and]
      exact BitVec.getLsbD_zero
  | n + 1, i, k, hk => by
      rw [List.range'_succ, List.map_cons, wordOfBytes, BitVec.getLsbD_or, getLsbD_byteAt v i k hk,
        getLsbD_wordOfBytes v n (i + 1) k hk, ← Bool.and_or_distrib_right]
      congr 1
      rw [← Bool.decide_or]
      exact decide_eq_decide.mpr (by omega)

theorem length_writeFixed {w : Nat} (bytes : Nat) (v : BitVec w) :
    (writeFixed bytes v).length = bytes := by
  rw [writeFixed, List.length_map, List.length_range]

theorem readFixed_writeFixed {w bytes : Nat} (hw : w = 8 * bytes) (v : BitVec w) (rest : Bytes) :
    readFixed w bytes (writeFixed bytes v ++ rest) = some (v, rest) := by
  have hlen := length_writeFixed bytes v
  have hword : wordOfBytes w 0 (writeFixed bytes v) = v := by
    refine BitVec.eq_of_getLsbD_eq fun k hk => ?_
    rw [writeFixed, List.range_eq_range', getLsbD_wordOfBytes v bytes 0 k hk,
      decide_eq_true (by omega), Bool.true_and]
  rw [readFixed, if_neg (by rw [List.length_append, hlen]; omega), List.take_left' hlen,
    List.drop_left' hlen, hword]

theorem readFixed_length {w bytes : Nat} (hpos : 0 < bytes) {bs rest : Bytes} {v : BitVec w}
    (h : readFixed w bytes bs = some (v, rest)) : rest.length < bs.length := by
  unfold readFixed at h
  split at h
  · exact nomatch h
  · rw [Option.some_inj, Prod.mk.injEq] at h
    rw [← h.2, List.length_drop]
    omega

/-! ## Length-delimited regions -/

theorem readLengthDelimited_write {s : Bytes} (hs : s.length < 2 ^ 64) (rest : Bytes) :
    readLengthDelimited (writeLengthDelimited s ++ rest) = some (s, rest) := by
  have hsize : (sizeWord s.length).toNat = s.length := by
    rw [sizeWord, BitVec.toNat_ofNat, Nat.mod_eq_of_lt hs]
  rw [readLengthDelimited, writeLengthDelimited, List.append_assoc, readVarint_writeVarint,
    Option.bind_some]
  simp only [hsize, List.length_append, List.take_left, List.drop_left]
  exact if_neg (by omega)

theorem readLengthDelimited_length {bs region rest : Bytes}
    (h : readLengthDelimited bs = some (region, rest)) :
    region.length + rest.length < bs.length := by
  unfold readLengthDelimited at h
  cases hlen : readVarint bs with
  | none => simp only [hlen, Option.bind_none, reduceCtorEq] at h
  | some out =>
      obtain ⟨len, tail⟩ := out
      have htail := readVarint_length hlen
      simp only [hlen, Option.bind_some] at h
      split at h
      · exact nomatch h
      · rw [Option.some_inj, Prod.mk.injEq] at h
        rw [← h.1, ← h.2, List.length_take, List.length_drop]
        omega

/-! ## Tags -/

theorem getLsbD_tagWord (fieldNumber : BitVec 32) (wt : WireType) {k : Nat} (hk : k < 64) :
    (tagWord fieldNumber wt).getLsbD k =
      ((!decide (k < 3) && fieldNumber.getLsbD (k - 3)) || wt.getLsbD k) := by
  rw [tagWord, BitVec.getLsbD_or, BitVec.getLsbD_shiftLeft, BitVec.getLsbD_setWidth,
    BitVec.getLsbD_setWidth]
  simp only [hk, show k - 3 < 64 by omega, decide_true, Bool.true_and]

theorem Key.fieldNumber_tagWord (fieldNumber : BitVec 32) (wt : WireType) :
    Key.fieldNumber ⟨tagWord fieldNumber wt⟩ = fieldNumber := by
  refine BitVec.eq_of_getLsbD_eq fun k hk => ?_
  rw [Key.fieldNumber, BitVec.getLsbD_setWidth, BitVec.getLsbD_ushiftRight,
    getLsbD_tagWord _ _ (by omega), BitVec.getLsbD_of_ge wt _ (by omega), Bool.or_false,
    decide_eq_true hk, decide_eq_false (by omega), Bool.not_false, Bool.true_and, Bool.true_and]
  congr 1
  omega

theorem Key.wireType_tagWord (fieldNumber : BitVec 32) (wt : WireType) :
    Key.wireType ⟨tagWord fieldNumber wt⟩ = wt := by
  refine BitVec.eq_of_getLsbD_eq fun k hk => ?_
  have hseven : (7#64).getLsbD k = true := by
    rcases (show k = 0 ∨ k = 1 ∨ k = 2 by omega) with rfl | rfl | rfl <;> decide
  rw [Key.wireType, BitVec.getLsbD_setWidth, BitVec.getLsbD_and, hseven,
    getLsbD_tagWord _ _ (by omega), decide_eq_true hk]
  simp

/-- A number of 32 bits stands on the wire as it is. -/
theorem Key.wireNumber_tagWord (fieldNumber : BitVec 32) (wt : WireType) :
    Key.wireNumber ⟨tagWord fieldNumber wt⟩ = fieldNumber.toNat := by
  have hword : tagWord fieldNumber wt >>> 3 = fieldNumber.setWidth 64 := by
    refine BitVec.eq_of_getLsbD_eq fun k hk => ?_
    rw [BitVec.getLsbD_ushiftRight, BitVec.getLsbD_setWidth, decide_eq_true hk, Bool.true_and]
    by_cases htop : 3 + k < 64
    · rw [getLsbD_tagWord _ _ htop, BitVec.getLsbD_of_ge wt _ (by omega), Bool.or_false,
        decide_eq_false (by omega), Bool.not_false, Bool.true_and]
      congr 1
      omega
    · rw [BitVec.getLsbD_of_ge _ _ (by omega), BitVec.getLsbD_of_ge _ _ (by omega)]
  rw [Key.wireNumber, hword, BitVec.toNat_setWidth, Nat.mod_eq_of_lt]
  exact Nat.lt_trans fieldNumber.isLt (by decide)

theorem readTag_writeTag (fieldNumber : BitVec 32) (wt : WireType) (rest : Bytes) :
    readTag (writeTag fieldNumber wt ++ rest) = some (⟨tagWord fieldNumber wt⟩, rest) := by
  rw [readTag, writeTag, readVarint_writeVarint]
  rfl

theorem readTag_length {bs rest : Bytes} {key : Key} (h : readTag bs = some (key, rest)) :
    rest.length < bs.length := by
  unfold readTag at h
  obtain ⟨⟨word, tail⟩, hread, hout⟩ := Option.map_eq_some_iff.mp h
  rw [Prod.mk.injEq] at hout
  exact hout.2 ▸ readVarint_length hread

theorem writeTag_ne_nil (fieldNumber : BitVec 32) (wt : WireType) :
    writeTag fieldNumber wt ≠ [] := writeVarint_ne_nil _

/-! ## Skipping -/

/-- `skip_field` is one of four readers without its value, or fails. -/
theorem skipField_elim {P : (Bytes → Option Bytes) → Prop}
    (hvarint : P fun bs => (readVarint bs).map Prod.snd)
    (hfixed64 : P fun bs => (readFixed64 bs).map Prod.snd)
    (hfixed32 : P fun bs => (readFixed32 bs).map Prod.snd)
    (hregion : P fun bs => (readLengthDelimited bs).map Prod.snd)
    (hnone : P fun _ => none) (wt : WireType) : P (skipField wt) := by
  unfold skipField
  by_cases hwt : wt = .varint
  · simp only [if_pos hwt]
    exact hvarint
  simp only [if_neg hwt]
  by_cases hwt : wt = .fixed64
  · simp only [if_pos hwt]
    exact hfixed64
  simp only [if_neg hwt]
  by_cases hwt : wt = .fixed32
  · simp only [if_pos hwt]
    exact hfixed32
  simp only [if_neg hwt]
  by_cases hwt : wt = .lengthDelimited
  · simp only [if_pos hwt]
    exact hregion
  simp only [if_neg hwt]
  exact hnone

theorem skipField_length {wt : WireType} {bs rest : Bytes} (h : skipField wt bs = some rest) :
    rest.length < bs.length := by
  have hread {α : Type} {read : Bytes → Option (α × Bytes)}
      (hshrinks : ∀ bs v rest, read bs = some (v, rest) → rest.length < bs.length)
      (bs rest : Bytes) (h : (read bs).map Prod.snd = some rest) : rest.length < bs.length := by
    obtain ⟨⟨v, tail⟩, hout, rfl⟩ := Option.map_eq_some_iff.mp h
    exact hshrinks bs v tail hout
  refine skipField_elim
    (P := fun skip => ∀ bs rest, skip bs = some rest → rest.length < bs.length)
    ?_ ?_ ?_ ?_ (fun _ _ h => nomatch h) wt bs rest h
  · exact hread fun _ _ _ => readVarint_length
  · exact hread fun _ _ _ => readFixed_length (by decide)
  · exact hread fun _ _ _ => readFixed_length (by decide)
  · refine hread fun bs region rest hout => ?_
    exact Nat.lt_of_le_of_lt (Nat.le_add_left ..) (readLengthDelimited_length hout)

end EsphomeApi.Proto
