/-
EsphomeApi.Proto.Concatenation — decoding one byte string behind another is
decoding the second into the message that the first gave.

No reader of `wire.hpp` looks past the bytes it returns: what it reads off a
byte string it reads off every longer one, with the new bytes left over. That
goes from the varints to the regions of a length prefix, from there to the
cases that `emit_decode_field` writes, and with them to a turn of the loop of
`decode`. The loop itself ends only where the input does, so what it has read
by then is a prefix of what it reads of a longer input.
-/
import EsphomeApi.Proto.RoundTrip

namespace EsphomeApi.Proto

open Library

/-! ## Readers -/

/-- A reader that does not look past what it reads. -/
def ReadExtends {α : Type} (read : Bytes → Option (α × Bytes)) : Prop :=
  ∀ bs v rest, read bs = some (v, rest) → ∀ more, read (bs ++ more) = some (v, rest ++ more)

theorem ReadExtends.map {α β : Type} {read : Bytes → Option (α × Bytes)} (h : ReadExtends read)
    (f : α → β) : ReadExtends fun bs => (read bs).map fun out => (f out.1, out.2) := by
  intro bs v rest hread more
  obtain ⟨⟨u, tail⟩, hout, heq⟩ := Option.map_eq_some_iff.mp hread
  obtain ⟨rfl, rfl⟩ := Prod.mk.inj heq
  simp only [h bs u tail hout more, Option.map_some]

/-- A reader behind a reader. -/
theorem ReadExtends.bind {α β : Type} {read : Bytes → Option (α × Bytes)}
    {g : α → Bytes → Option (β × Bytes)} (h : ReadExtends read) (hg : ∀ v, ReadExtends (g v)) :
    ReadExtends fun bs => (read bs).bind fun out => g out.1 out.2 := by
  intro bs v rest hread more
  obtain ⟨⟨u, tail⟩, hout, hbody⟩ := Option.bind_eq_some_iff.mp hread
  simp only [h bs u tail hout more, Option.bind_some]
  exact hg u tail v rest hbody more

theorem readVarint_extends : ReadExtends readVarint := by
  intro bs v rest h more
  rw [readVarint_eq] at h ⊢
  cases hdecode : Leb128.decode 10 bs with
  | incomplete => simp only [hdecode, reduceCtorEq] at h
  | overflow => simp only [hdecode, reduceCtorEq] at h
  | done u tail =>
      simp only [hdecode, Option.some_inj, Prod.mk.injEq] at h
      obtain ⟨rfl, rfl⟩ := h
      rw [Leb128.decode_append_done more hdecode]

/-- A run of a known length. -/
theorem take_extends {α : Type} (n : Nat) (f : Bytes → α) :
    ReadExtends fun bs => if bs.length < n then none else some (f (bs.take n), bs.drop n) := by
  intro bs v rest h more
  simp only at h ⊢
  split at h
  · exact nomatch h
  · next hlen =>
    simp only [Option.some_inj, Prod.mk.injEq] at h
    obtain ⟨rfl, rfl⟩ := h
    have hle : n ≤ bs.length := Nat.not_lt.mp hlen
    rw [if_neg (by rw [List.length_append]; omega), List.take_append_of_le_length hle,
      List.drop_append_of_le_length hle]

theorem readFixed_extends (w bytes : Nat) : ReadExtends (readFixed w bytes) :=
  take_extends bytes (wordOfBytes w 0)

theorem readFixed32_extends : ReadExtends readFixed32 := readFixed_extends 32 4

theorem readFixed64_extends : ReadExtends readFixed64 := readFixed_extends 64 8

theorem readLengthDelimited_extends : ReadExtends readLengthDelimited :=
  readVarint_extends.bind fun len => take_extends len.toNat fun region => region

theorem readTag_extends : ReadExtends readTag :=
  readVarint_extends.map Key.mk

theorem readValue_extends (s : ScalarType) : ReadExtends (readValue s) :=
  readValue_elim (P := ReadExtends) readVarint_extends.map readFixed64_extends.map
    readFixed32_extends.map

/-- What a skipped field leaves is what a reader of its wire type leaves. -/
theorem snd_extends {α : Type} {read : Bytes → Option (α × Bytes)} (h : ReadExtends read)
    (bs rest : Bytes) (hread : (read bs).map Prod.snd = some rest) (more : Bytes) :
    (read (bs ++ more)).map Prod.snd = some (rest ++ more) := by
  obtain ⟨⟨v, tail⟩, hout, rfl⟩ := Option.map_eq_some_iff.mp hread
  rw [h bs v tail hout more, Option.map_some]

theorem skipField_extends {wt : WireType} {bs rest : Bytes} (h : skipField wt bs = some rest)
    (more : Bytes) : skipField wt (bs ++ more) = some (rest ++ more) :=
  skipField_elim
    (P := fun skip => ∀ bs rest, skip bs = some rest →
      ∀ more, skip (bs ++ more) = some (rest ++ more))
    (snd_extends readVarint_extends) (snd_extends readFixed64_extends)
    (snd_extends readFixed32_extends) (snd_extends readLengthDelimited_extends)
    (fun _ _ h => nomatch h) wt bs rest h more

/-! ## The cases of `decode` -/

theorem readElement_extends (s : ScalarType) : Extends (readElement s) := by
  intro bs vs rest vs' h more
  obtain ⟨⟨v, tail⟩, hread, heq⟩ := Option.map_eq_some_iff.mp h
  obtain ⟨rfl, rfl⟩ := Prod.mk.inj heq
  rw [readElement, readValue_extends s bs v tail hread more, Option.map_some]

variable {α σ : Type} {read : Bytes → Option (α × Bytes)} {bs rest : Bytes} {v : σ}

/-- A case that keeps what a reader gives. -/
theorem map_extends {f : α × Bytes → Bytes × σ} (hread : ReadExtends read)
    (h : (read bs).map f = some (rest, v)) (more : Bytes)
    (hf : ∀ u tail, f (u, tail ++ more) = ((f (u, tail)).1 ++ more, (f (u, tail)).2)) :
    (read (bs ++ more)).map f = some (rest ++ more, v) := by
  obtain ⟨⟨u, tail⟩, hout, heq⟩ := Option.map_eq_some_iff.mp h
  rw [hread bs u tail hout more, Option.map_some, hf, heq]

/-- A case that goes on with what a reader gives. -/
theorem bind_extends {f : α × Bytes → Option (Bytes × σ)} (hread : ReadExtends read)
    (h : (read bs).bind f = some (rest, v)) (more : Bytes)
    (hf : ∀ u tail, f (u, tail) = some (rest, v) → f (u, tail ++ more) = some (rest ++ more, v)) :
    (read (bs ++ more)).bind f = some (rest ++ more, v) := by
  obtain ⟨⟨u, tail⟩, hout, hbody⟩ := Option.bind_eq_some_iff.mp h
  rw [hread bs u tail hout more, Option.bind_some, hf u tail hbody]

/-- What is made of a region does not depend on what stands behind it. -/
theorem region_extends {τ : Type} {out : Option τ} {f : τ → σ} {tail : Bytes}
    (h : (out.map fun u => (tail, f u)) = some (rest, v)) (more : Bytes) :
    (out.map fun u => (tail ++ more, f u)) = some (rest ++ more, v) := by
  obtain ⟨u, rfl, heq⟩ := Option.map_eq_some_iff.mp h
  obtain ⟨rfl, rfl⟩ := Prod.mk.inj heq
  rfl

/-- The case of a member does not look past what it reads. -/
theorem Field.decode_extends : ∀ {field : Field} {wt : WireType} {bs rest : Bytes}
    {v v' : field.Value}, field.decode wt bs v = some (rest, v') →
      ∀ more, field.decode wt (bs ++ more) v = some (rest ++ more, v')
  | .scalar s, _, _, _, _, _, h, more => by
      unfold Field.decode at h ⊢
      exact map_extends (readValue_extends s) h more fun _ _ => rfl
  | .repeatedScalar s packed, _, _, _, _, _, h, more => by
      unfold Field.decode at h ⊢
      split at h
      · next hwt =>
        rw [if_pos hwt]
        exact bind_extends readLengthDelimited_extends h more fun _ _ hout =>
          region_extends (f := id) hout more
      · next hwt =>
        rw [if_neg hwt]
        exact readElement_extends s _ _ _ _ h more
  | .blob, _, _, _, _, _, h, more => by
      unfold Field.decode at h ⊢
      exact map_extends readLengthDelimited_extends h more fun _ _ => rfl
  | .repeatedBlob, _, _, _, vs, _, h, more => by
      unfold Field.decode at h ⊢
      exact map_extends readLengthDelimited_extends h more fun _ _ => rfl
  | .message fs, _, _, _, _, _, h, more => by
      unfold Field.decode at h ⊢
      exact bind_extends readLengthDelimited_extends h more fun _ _ hout =>
        region_extends (f := some) hout more
  | .repeatedMessage fs, _, _, _, vs, _, h, more => by
      unfold Field.decode at h ⊢
      exact bind_extends readLengthDelimited_extends h more fun _ _ hout =>
        region_extends (f := fun u => vs ++ [u]) hout more

/-- Nor does the `switch` over the field number. -/
theorem Fields.record_extends : ∀ {fs : Fields} {key : Key} {bs rest : Bytes} {v v' : fs.Value},
    fs.record key bs v = some (rest, v') →
      ∀ more, fs.record key (bs ++ more) v = some (rest ++ more, v')
  | .nil, _, _, _, _, _, h, more =>
      record_nil_eq_some.mpr (skipField_extends (record_nil_eq_some.mp h) more)
  | .cons number field fs, _, _, _, _, _, h, more => by
      obtain ⟨hnumber, hw, hread⟩ | ⟨hnumber, hw, hread⟩ := record_cons_eq_some.mp h
      · exact record_cons_eq_some.mpr (.inl ⟨hnumber, hw, Field.decode_extends hread more⟩)
      · exact record_cons_eq_some.mpr (.inr ⟨hnumber, hw, record_extends hread more⟩)

/-- A turn of the loop of `decode` does not look past its record. -/
theorem Fields.step_extends (fs : Fields) : Extends (decodeStep fs.record) := by
  intro bs v rest v' h more
  exact bind_extends readTag_extends h more fun key tail hrecord =>
    Fields.record_extends hrecord more

/-! ## Two inputs -/

/-- Where `decode` accepts a first input, it makes of the two inputs together
what it makes of the second one in the message that the first gave: the same
message, or `false` for both. -/
theorem decode_append {fs : Fields} {a : Bytes} {v w : fs.Value} (ha : fs.decode a v = some w)
    (b : Bytes) : fs.decode (a ++ b) v = fs.decode b w :=
  fs.step_extends.consumes fs.step_shrinks a.length a (Nat.le_refl _) v w ha b

/-- A packed run and a sub-message, and then more for both of them: the runs
are joined and the sub-messages merged. -/
theorem decode_append_sample :
    let fs : Fields := .cons 1 (.repeatedScalar .uint32 true) (.cons 2 (.message sampleInner) .nil)
    let value (run numbers : List (BitVec 32)) : fs.Value :=
      (run, (some ((lit "a" : Bytes), numbers, ()) : Option sampleInner.Value), ())
    fs.decode ([0x0A, 0x02, 0x05, 0x06, 0x12, 0x03, 0x0A, 0x01, 0x61] ++
      [0x08, 0x07, 0x12, 0x03, 0x12, 0x01, 0x0A]) fs.fresh = some (value [5, 6, 7] [5]) := by
  intro fs value
  have hfirst : fs.decode [0x0A, 0x02, 0x05, 0x06, 0x12, 0x03, 0x0A, 0x01, 0x61] fs.fresh =
      some (value [5, 6] []) := rfl
  exact decode_append hfirst [0x08, 0x07, 0x12, 0x03, 0x12, 0x01, 0x0A]

end EsphomeApi.Proto
