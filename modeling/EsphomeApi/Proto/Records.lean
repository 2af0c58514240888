/-
EsphomeApi.Proto.Records — what one turn of the loop of `decode` reads.

The bytes that a turn reads are a record (`Fields.IsRecord`). Two facts make
that a notion of its own: a turn does not depend on the message so far, except
for the value it gives (`Fields.step_stateFree`), and what it reads stands by
itself, so the same turn reads it off any other input (`Fields.step_piece`,
with `Fields.step_extends`). An input that `decode` accepts is then a row of
records (`Fields.record_of_decode`).
-/
import EsphomeApi.Proto.Concatenation

namespace EsphomeApi.Proto

open Library

/-! ## Reading does not depend on the message so far -/

/-- A step that succeeds in one state succeeds in every state, and leaves the same. -/
def StateFree {α σ : Type} (step : List α → σ → Option (List α × σ)) : Prop :=
  ∀ xs s rest s', step xs s = some (rest, s') → ∀ t, ∃ t', step xs t = some (rest, t')

theorem StateFree.consume {α σ : Type} {step : List α → σ → Option (List α × σ)}
    (hfree : StateFree step) (hs : Shrinks step) : ∀ (n : Nat) (xs : List α), xs.length ≤ n →
      ∀ s s', consume step xs s = some s' → ∀ t, ∃ t', consume step xs t = some t'
  | 0, xs, hlen, _, _, _, t => by
      obtain rfl : xs = [] := List.length_eq_zero_iff.mp (by omega)
      exact ⟨t, rfl⟩
  | n + 1, xs, hlen, s, s', h, t => by
      by_cases hxs : xs = []
      · subst hxs
        exact ⟨t, rfl⟩
      · rw [consume_of_ne_nil hs hxs] at h
        obtain ⟨⟨rest, u⟩, hstep, hrest⟩ := Option.bind_eq_some_iff.mp h
        obtain ⟨t₁, ht₁⟩ := hfree xs s rest u hstep t
        have hlt := hs _ _ _ _ hstep
        obtain ⟨t', ht'⟩ := hfree.consume hs n rest (by omega) u s' hrest t₁
        exact ⟨t', by rw [consume_of_ne_nil hs hxs, ht₁, Option.bind_some, ht']⟩

theorem decodeStep_stateFree {σ : Type} {record : Key → Bytes → σ → Option (Bytes × σ)}
    (hrecord : ∀ key, StateFree (record key)) : StateFree (decodeStep record) := by
  intro bs s rest s' h t
  obtain ⟨⟨key, tail⟩, htag, hout⟩ := Option.bind_eq_some_iff.mp h
  obtain ⟨t', ht'⟩ := hrecord key tail s rest s' hout t
  refine ⟨t', ?_⟩
  rw [decodeStep, htag]
  exact ht'

/-- A step that stores what a reader gives. -/
theorem map_stateFree {α σ : Type} (read : Bytes → Option (α × Bytes)) (store : σ → α → σ) :
    StateFree fun bs s => (read bs).map fun out => (out.2, store s out.1) := by
  intro bs s rest s' h t
  obtain ⟨⟨v, tail⟩, hread, heq⟩ := Option.map_eq_some_iff.mp h
  obtain ⟨rfl, rfl⟩ := Prod.mk.inj heq
  exact ⟨store t v, by simp only [hread, Option.map_some]⟩

theorem readElement_stateFree (s : ScalarType) : StateFree (readElement s) :=
  map_stateFree (readValue s) fun vs v => vs ++ [v]

mutual

theorem Field.decode_stateFree : ∀ (field : Field) (wt : WireType), StateFree (field.decode wt)
  | .scalar s, wt => map_stateFree (readValue s) fun _ w => w
  | .repeatedScalar s packed, wt => by
      intro bs vs rest vs' h us
      unfold Field.decode at h ⊢
      split at h
      · next hwt =>
        obtain ⟨⟨region, tail⟩, hread, hout⟩ := Option.bind_eq_some_iff.mp h
        obtain ⟨ws, hws, heq⟩ := Option.map_eq_some_iff.mp hout
        obtain ⟨rfl, rfl⟩ := Prod.mk.inj heq
        obtain ⟨us', hus⟩ := (readElement_stateFree s).consume (readElement_shrinks s)
          region.length region (Nat.le_refl _) vs ws hws us
        exact ⟨us', by simp only [if_pos hwt, hread, Option.bind_some, hus, Option.map_some]⟩
      · next hwt =>
        obtain ⟨us', hus⟩ := readElement_stateFree s bs vs rest vs' h us
        exact ⟨us', by rw [if_neg hwt, hus]⟩
  | .blob, wt => map_stateFree readLengthDelimited fun _ w => w
  | .repeatedBlob, wt => map_stateFree readLengthDelimited fun us w => List.append us [w]
  | .message fs, wt => by
      intro bs v rest v' h u
      unfold Field.decode at h ⊢
      obtain ⟨⟨region, tail⟩, hread, hout⟩ := Option.bind_eq_some_iff.mp h
      obtain ⟨w, hw, heq⟩ := Option.map_eq_some_iff.mp hout
      obtain ⟨rfl, rfl⟩ := Prod.mk.inj heq
      obtain ⟨w', hw'⟩ := (decodeStep_stateFree fun key => fs.record_stateFree key).consume
        fs.step_shrinks region.length region (Nat.le_refl _) _ w hw (Option.getD u fs.fresh)
      exact ⟨some w', by simp only [hread, Option.bind_some, hw', Option.map_some]⟩
  | .repeatedMessage fs, wt => by
      intro bs vs rest vs' h us
      unfold Field.decode at h ⊢
      obtain ⟨⟨region, tail⟩, hread, hout⟩ := Option.bind_eq_some_iff.mp h
      obtain ⟨w, hw, heq⟩ := Option.map_eq_some_iff.mp hout
      obtain ⟨rfl, rfl⟩ := Prod.mk.inj heq
      exact ⟨List.append us [w], by simp only [hread, Option.bind_some, hw, Option.map_some]⟩

theorem Fields.record_stateFree : ∀ (fs : Fields) (key : Key), StateFree (fs.record key)
  | .nil, key => fun _ _ _ _ h u =>
      ⟨u, Fields.record_nil_eq_some.mpr (Fields.record_nil_eq_some.mp h)⟩
  | .cons number field fs, key => by
      intro bs v rest v' h u
      obtain ⟨hnumber, -, hread⟩ | ⟨hnumber, -, hread⟩ := Fields.record_cons_eq_some.mp h
      · obtain ⟨w, hw⟩ := field.decode_stateFree key.wireType bs v.1 rest v'.1 hread u.1
        exact ⟨(w, u.2), Fields.record_cons_eq_some.mpr (.inl ⟨hnumber, rfl, hw⟩)⟩
      · obtain ⟨ws, hws⟩ := fs.record_stateFree key bs v.2 rest v'.2 hread u.2
        exact ⟨(u.1, ws), Fields.record_cons_eq_some.mpr (.inr ⟨hnumber, rfl, hws⟩)⟩

end

theorem Fields.step_stateFree (fs : Fields) : StateFree (decodeStep fs.record) :=
  decodeStep_stateFree fs.record_stateFree

/-! ## What is read is a piece of the input -/

/-- A reader that reads the same off the bytes that it takes alone. -/
def ReadPiece {α : Type} (read : Bytes → Option (α × Bytes)) : Prop :=
  ∀ bs v rest, read bs = some (v, rest) → ∃ piece, bs = piece ++ rest ∧ read piece = some (v, [])

theorem ReadPiece.map {α β : Type} {read : Bytes → Option (α × Bytes)} (h : ReadPiece read)
    (f : α → β) : ReadPiece fun bs => (read bs).map fun out => (f out.1, out.2) := by
  intro bs v rest hread
  obtain ⟨⟨u, tail⟩, hout, heq⟩ := Option.map_eq_some_iff.mp hread
  obtain ⟨rfl, rfl⟩ := Prod.mk.inj heq
  obtain ⟨piece, rfl, hpiece⟩ := h bs u tail hout
  exact ⟨piece, rfl, by simp only [hpiece, Option.map_some]⟩

/-- A reader behind a reader. -/
theorem ReadPiece.bind {α β : Type} {read : Bytes → Option (α × Bytes)}
    {g : α → Bytes → Option (β × Bytes)} (h : ReadPiece read) (he : ReadExtends read)
    (hg : ∀ v, ReadPiece (g v)) : ReadPiece fun bs => (read bs).bind fun out => g out.1 out.2 := by
  intro bs v rest hread
  obtain ⟨⟨u, tail⟩, hout, hbody⟩ := Option.bind_eq_some_iff.mp hread
  obtain ⟨first, rfl, hfirst⟩ := h bs u tail hout
  obtain ⟨second, rfl, hsecond⟩ := hg u tail v rest hbody
  refine ⟨first ++ second, by rw [List.append_assoc], ?_⟩
  simp only [he first u [] hfirst second, List.nil_append, Option.bind_some, hsecond]

theorem readVarint_piece : ReadPiece readVarint := by
  intro bs v rest h
  rw [readVarint_eq] at h
  cases hdecode : Leb128.decode 10 bs with
  | incomplete => simp only [hdecode, reduceCtorEq] at h
  | overflow => simp only [hdecode, reduceCtorEq] at h
  | done u tail =>
      simp only [hdecode, Option.some_inj, Prod.mk.injEq] at h
      obtain ⟨rfl, rfl⟩ := h
      obtain ⟨piece, rfl, hpiece⟩ := Leb128.decode_done_piece hdecode
      exact ⟨piece, rfl, by rw [readVarint_eq, hpiece]⟩

/-- A run of a known length. -/
theorem take_piece {α : Type} (n : Nat) (f : Bytes → α) :
    ReadPiece fun bs => if bs.length < n then none else some (f (bs.take n), bs.drop n) := by
  intro bs v rest h
  simp only at h
  split at h
  · exact nomatch h
  · next hlen =>
    simp only [Option.some_inj, Prod.mk.injEq] at h
    obtain ⟨rfl, rfl⟩ := h
    have htake : (bs.take n).length = n := List.length_take_of_le (Nat.not_lt.mp hlen)
    refine ⟨bs.take n, (List.take_append_drop n bs).symm, ?_⟩
    simp only [htake, Nat.lt_irrefl, if_false, List.take_take, Nat.min_self,
      List.drop_eq_nil_of_le (Nat.le_of_eq htake)]

theorem readFixed32_piece : ReadPiece readFixed32 := take_piece 4 (wordOfBytes 32 0)

theorem readFixed64_piece : ReadPiece readFixed64 := take_piece 8 (wordOfBytes 64 0)

theorem readLengthDelimited_piece : ReadPiece readLengthDelimited :=
  readVarint_piece.bind readVarint_extends fun len => take_piece len.toNat fun region => region

theorem readTag_piece : ReadPiece readTag := readVarint_piece.map Key.mk

theorem readValue_piece (s : ScalarType) : ReadPiece (readValue s) :=
  readValue_elim (P := ReadPiece) readVarint_piece.map readFixed64_piece.map readFixed32_piece.map

/-- A step that takes a piece of its own. -/
def StepPiece {σ : Type} (step : Bytes → σ → Option (Bytes × σ)) : Prop :=
  ∀ bs s rest s', step bs s = some (rest, s') →
    ∃ piece, bs = piece ++ rest ∧ step piece s = some ([], s')

section Pieces

variable {α σ : Type} {read : Bytes → Option (α × Bytes)} {bs rest : Bytes} {v : σ}

/-- A case that keeps what a reader gives. -/
theorem map_piece {f : α × Bytes → Bytes × σ} (hread : ReadPiece read)
    (h : (read bs).map f = some (rest, v))
    (hf : ∀ u tail, (f (u, tail)).1 = tail ∧ (f (u, [])).1 = [] ∧ (f (u, [])).2 = (f (u, tail)).2) :
    ∃ piece, bs = piece ++ rest ∧ (read piece).map f = some ([], v) := by
  obtain ⟨⟨u, tail⟩, hout, heq⟩ := Option.map_eq_some_iff.mp h
  obtain ⟨hrest, hnil, hvalue⟩ := hf u tail
  obtain ⟨piece, rfl, hpiece⟩ := hread bs u tail hout
  rw [heq] at hrest hvalue
  refine ⟨piece, by rw [← hrest], ?_⟩
  rw [hpiece, Option.map_some]
  exact congrArg some (Prod.ext hnil hvalue)

/-- A case that makes something of what a reader gives, and leaves what that leaves. -/
theorem bind_piece {τ : Type} {f : α → Option τ} {g : τ → σ} (hread : ReadPiece read)
    (h : ((read bs).bind fun out => (f out.1).map fun u => (out.2, g u)) = some (rest, v)) :
    ∃ piece, bs = piece ++ rest ∧
      ((read piece).bind fun out => (f out.1).map fun u => (out.2, g u)) = some ([], v) := by
  obtain ⟨⟨u, tail⟩, hout, hmap⟩ := Option.bind_eq_some_iff.mp h
  obtain ⟨w, hw, heq⟩ := Option.map_eq_some_iff.mp hmap
  obtain ⟨rfl, rfl⟩ := Prod.mk.inj heq
  obtain ⟨piece, rfl, hpiece⟩ := hread bs u tail hout
  exact ⟨piece, rfl, by simp only [hpiece, Option.bind_some, hw, Option.map_some]⟩

end Pieces

theorem readElement_piece (s : ScalarType) : StepPiece (readElement s) := by
  intro bs vs rest vs' h
  exact map_piece (readValue_piece s) h fun _ _ => ⟨rfl, rfl, rfl⟩

theorem Field.decode_piece : ∀ (field : Field) (wt : WireType), StepPiece (field.decode wt)
  | .scalar s, wt => by
      intro bs v rest v' h
      unfold Field.decode at h ⊢
      exact map_piece (readValue_piece s) h fun _ _ => ⟨rfl, rfl, rfl⟩
  | .repeatedScalar s packed, wt => by
      intro bs vs rest vs' h
      unfold Field.decode at h ⊢
      split at h
      · next hwt =>
        simp only [if_pos hwt]
        exact bind_piece (f := fun region => consume (readElement s) region vs) (g := id)
          readLengthDelimited_piece h
      · next hwt =>
        simp only [if_neg hwt]
        exact readElement_piece s bs vs rest vs' h
  | .blob, wt => by
      intro bs v rest v' h
      unfold Field.decode at h ⊢
      exact map_piece readLengthDelimited_piece h fun _ _ => ⟨rfl, rfl, rfl⟩
  | .repeatedBlob, wt => by
      intro bs v rest v' h
      unfold Field.decode at h ⊢
      exact map_piece readLengthDelimited_piece h fun _ _ => ⟨rfl, rfl, rfl⟩
  | .message fs, wt => by
      intro bs v rest v' h
      unfold Field.decode at h ⊢
      exact bind_piece
        (f := fun region => consume (decodeStep fs.record) region (Option.getD v fs.fresh))
        (g := some) readLengthDelimited_piece h
  | .repeatedMessage fs, wt => by
      intro bs vs rest vs' h
      unfold Field.decode at h ⊢
      exact bind_piece (f := fun region => consume (decodeStep fs.record) region fs.fresh)
        (g := fun v => List.append vs [v]) readLengthDelimited_piece h

theorem snd_piece {α : Type} {read : Bytes → Option (α × Bytes)} (hread : ReadPiece read)
    (bs rest : Bytes) (h : (read bs).map Prod.snd = some rest) :
    ∃ piece, bs = piece ++ rest ∧ (read piece).map Prod.snd = some [] := by
  obtain ⟨⟨v, tail⟩, hout, rfl⟩ := Option.map_eq_some_iff.mp h
  obtain ⟨piece, rfl, hpiece⟩ := hread bs v tail hout
  exact ⟨piece, rfl, by rw [hpiece, Option.map_some]⟩

theorem skipField_piece {wt : WireType} {bs rest : Bytes} (h : skipField wt bs = some rest) :
    ∃ piece, bs = piece ++ rest ∧ skipField wt piece = some [] :=
  skipField_elim
    (P := fun skip => ∀ bs rest, skip bs = some rest →
      ∃ piece, bs = piece ++ rest ∧ skip piece = some [])
    (snd_piece readVarint_piece) (snd_piece readFixed64_piece) (snd_piece readFixed32_piece)
    (snd_piece readLengthDelimited_piece) (fun _ _ h => nomatch h) wt bs rest h

theorem Fields.record_piece : ∀ (fs : Fields) (key : Key), StepPiece (fs.record key)
  | .nil, key => by
      intro bs v rest v' h
      obtain ⟨piece, rfl, hpiece⟩ := skipField_piece (record_nil_eq_some.mp h)
      exact ⟨piece, rfl, record_nil_eq_some.mpr hpiece⟩
  | .cons number field fs, key => by
      intro bs v rest v' h
      obtain ⟨hnumber, hw, hread⟩ | ⟨hnumber, hw, hread⟩ := record_cons_eq_some.mp h
      · obtain ⟨piece, rfl, hpiece⟩ := field.decode_piece key.wireType bs v.1 rest v'.1 hread
        exact ⟨piece, rfl, record_cons_eq_some.mpr (.inl ⟨hnumber, hw, hpiece⟩)⟩
      · obtain ⟨piece, rfl, hpiece⟩ := fs.record_piece key bs v.2 rest v'.2 hread
        exact ⟨piece, rfl, record_cons_eq_some.mpr (.inr ⟨hnumber, hw, hpiece⟩)⟩

theorem Fields.step_piece (fs : Fields) : StepPiece (decodeStep fs.record) := by
  intro bs v rest v' h
  obtain ⟨⟨key, tail⟩, htag, hrecord⟩ := Option.bind_eq_some_iff.mp h
  obtain ⟨tag, rfl, htag'⟩ := readTag_piece bs key tail htag
  obtain ⟨body, rfl, hbody⟩ := fs.record_piece key tail v rest v' hrecord
  refine ⟨tag ++ body, by rw [List.append_assoc], ?_⟩
  rw [decodeStep, readTag_extends tag key [] htag' body]
  exact hbody

/-! ## Records -/

/-- `decode` reads the bytes as one record. -/
def Fields.IsRecord (fs : Fields) (bs : Bytes) : Prop :=
  ∃ v v', decodeStep fs.record bs v = some ([], v')

variable {fs : Fields} {bs : Bytes}

/-- A record is read in any message, and whatever follows it. -/
theorem Fields.IsRecord.step (h : fs.IsRecord bs) (v : fs.Value) :
    ∃ v', ∀ rest, decodeStep fs.record (bs ++ rest) v = some (rest, v') := by
  obtain ⟨s, s', hs⟩ := h
  obtain ⟨v', hv'⟩ := fs.step_stateFree bs s [] s' hs v
  exact ⟨v', fs.step_extends bs v [] v' hv'⟩

/-- One turn of the loop. -/
theorem Fields.decode_of_step {v v' : fs.Value} {rest : Bytes}
    (h : decodeStep fs.record bs v = some (rest, v')) : fs.decode bs v = fs.decode rest v' := by
  have hne : bs ≠ [] := by
    rintro rfl
    exact absurd (fs.step_shrinks _ _ _ _ h) (Nat.not_lt_zero _)
  rw [Fields.decode, consume_of_ne_nil fs.step_shrinks hne, h, Option.bind_some, Fields.decode]

/-- An input that `decode` accepts is empty, or begins with a record. -/
theorem Fields.record_of_decode {v w : fs.Value} (hbs : bs ≠ []) (h : fs.decode bs v = some w) :
    ∃ r rest v', bs = r ++ rest ∧ fs.IsRecord r ∧ decodeStep fs.record bs v = some (rest, v') ∧
      fs.decode rest v' = some w := by
  rw [Fields.decode, consume_of_ne_nil fs.step_shrinks hbs] at h
  obtain ⟨⟨rest, v'⟩, hstep, hrest⟩ := Option.bind_eq_some_iff.mp h
  obtain ⟨r, hr, hread⟩ := fs.step_piece bs v rest v' hstep
  exact ⟨r, rest, v', hr, ⟨v, v', hread⟩, hstep, hrest⟩

/-! ## Length prefixes -/

/-- A length prefix: a varint, however long, of the length of the region. -/
def IsLength (bs region : Bytes) : Prop :=
  ∃ len, readVarint bs = some (len, []) ∧ len.toNat = region.length

theorem readLengthDelimited_of_isLength {len region : Bytes} (h : IsLength len region)
    (rest : Bytes) : readLengthDelimited (len ++ region ++ rest) = some (region, rest) := by
  obtain ⟨n, hread, hn⟩ := h
  have hvarint := readVarint_extends len n [] hread (region ++ rest)
  rw [readLengthDelimited, List.append_assoc, hvarint, List.nil_append, Option.bind_some]
  simp only [hn, List.length_append, List.take_left, List.drop_left]
  exact if_neg (by omega)

end EsphomeApi.Proto
