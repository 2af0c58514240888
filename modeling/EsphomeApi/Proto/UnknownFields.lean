/-
EsphomeApi.Proto.UnknownFields — records that the schema does not know change
nothing.

`Fields.Padded bs bs'` says that `bs'` is `bs` with records of other numbers
put between its records, at the top or inside of sub-messages, whose length
prefixes are then others. The proof follows that relation
(`Fields.Padded.decode`): a record that is copied is read again, whatever
stands around it; a record of an unknown number is skipped in one turn; and the
region of a sub-message is decoded to the same sub-message, so the record
around it does the same. The places between records are those where the loop of
`decode` is about to read a tag; where the input follows the wire grammar they
are the grammar's (`Fields.padded_insert`).
-/
import EsphomeApi.Proto.GrammarTheorems
import EsphomeApi.Proto.Records

namespace EsphomeApi.Proto

open Library

/-! ## Insertion -/

/-- A complete record of the wire types 0, 1, 2 or 5, whose number is positive,
below 2^29, and of no field. -/
def Fields.IsUnknown (fs : Fields) (bs : Bytes) : Prop :=
  ∃ r : Record, readRecord bs = some (r, []) ∧ 0 < r.number ∧ r.number < 2 ^ 29 ∧
    r.number ∉ fs.numbers

/-- The field that the `switch` finds for a number. -/
def Fields.field? : Fields → BitVec 32 → Option Field
  | .nil, _ => none
  | .cons number field rest, n =>
      if n = BitVec.ofNat 32 number then some field else rest.field? n

/-- The class of the sub-messages of a field. -/
def Field.inner : Field → Option Fields
  | .message fs => some fs
  | .repeatedMessage fs => some fs
  | _ => none

/-- The second input is the first one with records of unknown numbers inserted:
between its records, or in the regions of its sub-messages, whose length
prefixes are adjusted. -/
inductive Fields.Padded : Fields → Bytes → Bytes → Prop where
  | nil (fs : Fields) : fs.Padded [] []
  | insert {fs : Fields} {u bs bs' : Bytes} (hu : fs.IsUnknown u) (h : fs.Padded bs bs') :
      fs.Padded bs (u ++ bs')
  | copy {fs : Fields} {r bs bs' : Bytes} (hr : fs.IsRecord r) (h : fs.Padded bs bs') :
      fs.Padded (r ++ bs) (r ++ bs')
  | inside {fs inner : Fields} {key : Key} {field : Field}
      {tag len len' region region' bs bs' : Bytes} (htag : readTag tag = some (key, []))
      (hfield : fs.field? key.fieldNumber = some field) (hinner : field.inner = some inner)
      (hlen : IsLength len region) (hlen' : IsLength len' region')
      (hregion : inner.Padded region region') (h : fs.Padded bs bs') :
      fs.Padded (tag ++ len ++ region ++ bs) (tag ++ len' ++ region' ++ bs')

variable {fs : Fields} {key : Key} {field : Field} {bs bs' : Bytes}

/-- What the case of a field does with one input and with another, the `switch`
does with them. -/
theorem Fields.record_congr : ∀ {fs : Fields}, fs.field? key.fieldNumber = some field →
    ∀ {bs bs' tail tail' : Bytes}, (∀ v rest v', field.decode key.wireType bs v = some (rest, v') →
      rest = tail ∧ field.decode key.wireType bs' v = some (tail', v')) →
      ∀ {v w : fs.Value} {rest : Bytes}, fs.record key bs v = some (rest, w) →
        rest = tail ∧ fs.record key bs' v = some (tail', w)
  | .nil, hfield, _, _, _, _, _, _, _, _, _ => nomatch hfield
  | .cons number field' fs, hfield, bs, bs', tail, tail', hdecode, v, w, rest, h => by
      unfold Fields.field? at hfield
      obtain ⟨hnumber, hw, hread⟩ | ⟨hnumber, hw, hread⟩ := record_cons_eq_some.mp h
      · rw [if_pos hnumber] at hfield
        obtain rfl := Option.some_inj.mp hfield
        obtain ⟨hrest, hother⟩ := hdecode v.1 rest w.1 hread
        exact ⟨hrest, record_cons_eq_some.mpr (.inl ⟨hnumber, hw, hother⟩)⟩
      · rw [if_neg hnumber] at hfield
        obtain ⟨hrest, hother⟩ := record_congr hfield hdecode hread
        exact ⟨hrest, record_cons_eq_some.mpr (.inr ⟨hnumber, hw, hother⟩)⟩

/-- A sub-message whose region is replaced by one that decodes alike. -/
theorem Field.decode_inside {inner : Fields} (hinner : field.inner = some inner) {wt : WireType}
    {len len' region region' : Bytes} (hlen : IsLength len region) (hlen' : IsLength len' region')
    (hregion : ∀ v w, inner.decode region v = some w → inner.decode region' v = some w)
    (bs bs' : Bytes) (v : field.Value) (rest : Bytes) (v' : field.Value)
    (h : field.decode wt (len ++ region ++ bs) v = some (rest, v')) :
    rest = bs ∧ field.decode wt (len' ++ region' ++ bs') v = some (bs', v') := by
  have hread := readLengthDelimited_of_isLength hlen bs
  have hread' := readLengthDelimited_of_isLength hlen' bs'
  cases field with
  | message fs =>
      obtain rfl := Option.some_inj.mp hinner
      unfold Field.decode at h ⊢
      simp only [hread, Option.bind_some] at h
      obtain ⟨w, hw, heq⟩ := Option.map_eq_some_iff.mp h
      obtain ⟨rfl, rfl⟩ := Prod.mk.inj heq
      have hw' : consume (decodeStep fs.record) region' (Option.getD v fs.fresh) = some w :=
        hregion _ w hw
      exact ⟨rfl, by simp only [hread', Option.bind_some, hw', Option.map_some]⟩
  | repeatedMessage fs =>
      obtain rfl := Option.some_inj.mp hinner
      unfold Field.decode at h ⊢
      simp only [hread, Option.bind_some] at h
      obtain ⟨w, hw, heq⟩ := Option.map_eq_some_iff.mp h
      obtain ⟨rfl, rfl⟩ := Prod.mk.inj heq
      have hw' : consume (decodeStep fs.record) region' fs.fresh = some w := hregion _ w hw
      exact ⟨rfl, by simp only [hread', Option.bind_some, hw', Option.map_some]⟩
  | _ => cases hinner

/-! ## Turns of the loop -/

/-- A record of an unknown number is skipped. -/
theorem Fields.step_unknown (hfs : fs.WellFormed) {u : Bytes} (hu : fs.IsUnknown u) (v : fs.Value)
    (bs : Bytes) : decodeStep fs.record (u ++ bs) v = some (bs, v) := by
  obtain ⟨r, hread, -, hlt, hnumber⟩ := hu
  obtain ⟨⟨key, tail⟩, htag, hpayload⟩ := Option.bind_eq_some_iff.mp hread
  obtain ⟨⟨payload, rest⟩, hp, heq⟩ := Option.map_eq_some_iff.mp hpayload
  simp only [Prod.mk.injEq] at heq
  obtain ⟨rfl, rfl⟩ := heq
  have hskips : fs.Skips key tail := by
    refine Fields.skips_iff.mpr (.inl fun n hn hsame => hnumber ?_)
    rw [Key.fieldNumber_eq] at hsame
    exact ofNat_inj_of_lt hlt (Fields.number_lt hfs n hn) hsame ▸ hn
  have hstep : decodeStep fs.record u v = some ([], v) := by
    rw [decodeStep, htag]
    show fs.record key tail v = some ([], v)
    rw [hskips, skipField_eq, hp]
    rfl
  exact fs.step_extends u v [] v hstep bs

/-! ## Inserted records -/

theorem Fields.field?_wellFormed : ∀ {fs : Fields} {n : BitVec 32}, fs.WellFormed →
    fs.field? n = some field → field.WellFormed
  | .nil, _, _, h => nomatch h
  | .cons number field' fs, n, hfs, h => by
      unfold Fields.field? at h
      split at h
      · obtain rfl := Option.some_inj.mp h
        exact hfs.2.2.1
      · exact field?_wellFormed hfs.2.2.2 h

theorem Field.inner_wellFormed {inner : Fields} (hfield : field.WellFormed)
    (h : field.inner = some inner) : inner.WellFormed := by
  cases field with
  | message fs =>
      obtain rfl := Option.some_inj.mp h
      exact hfield
  | repeatedMessage fs =>
      obtain rfl := Option.some_inj.mp h
      exact hfield
  | _ => cases h

/-- Inserted records of unknown numbers are skipped, at every level. -/
theorem Fields.Padded.decode (h : fs.Padded bs bs') (hfs : fs.WellFormed) :
    ∀ v w, fs.decode bs v = some w → fs.decode bs' v = some w := by
  induction h with
  | nil fs => exact fun _ _ h => h
  | insert hu _ ih =>
      intro v w h
      rw [Fields.decode_of_step (Fields.step_unknown hfs hu v _)]
      exact ih hfs v w h
  | copy hr _ ih =>
      intro v w h
      obtain ⟨v', hv'⟩ := hr.step v
      rw [Fields.decode_of_step (hv' _)] at h ⊢
      exact ih hfs v' w h
  | @inside fs inner key field tag len len' region region' bs bs' htag hfield hinner hlen hlen' _ _
      ihregion ih =>
      intro v w h
      have hread (tail : Bytes) : readTag (tag ++ tail) = some (key, tail) :=
        readTag_extends tag key [] htag tail
      have hwf := Field.inner_wellFormed (Fields.field?_wellFormed hfs hfield) hinner
      have hne : tag ++ len ++ region ++ bs ≠ [] := by
        intro hnil
        have htag' := readTag_length htag
        simp only [List.append_eq_nil_iff] at hnil
        rw [hnil.1.1.1] at htag'
        exact absurd htag' (Nat.not_lt_zero _)
      rw [Fields.decode, consume_of_ne_nil fs.step_shrinks hne] at h
      obtain ⟨⟨rest, v'⟩, hstep, hrest⟩ := Option.bind_eq_some_iff.mp h
      rw [decodeStep, List.append_assoc, List.append_assoc, hread, Option.bind_some,
        ← List.append_assoc] at hstep
      obtain ⟨rfl, hother⟩ := Fields.record_congr hfield
        (Field.decode_inside hinner hlen hlen' (ihregion hwf) bs bs') hstep
      have hstep' : decodeStep fs.record (tag ++ len' ++ region' ++ bs') v = some (bs', v') := by
        rw [decodeStep, List.append_assoc, List.append_assoc, hread, Option.bind_some,
          ← List.append_assoc]
        exact hother
      rw [Fields.decode_of_step hstep']
      exact ih hfs v' w hrest

/-- Every input that `decode` accepts is a row of records. -/
theorem Fields.padded_self : ∀ (n : Nat) (bs : Bytes), bs.length ≤ n → ∀ v w : fs.Value,
    fs.decode bs v = some w → fs.Padded bs bs
  | 0, bs, hlen, _, _, _ => by
      obtain rfl : bs = [] := List.length_eq_zero_iff.mp (by omega)
      exact .nil fs
  | n + 1, bs, hlen, v, w, h => by
      by_cases hbs : bs = []
      · subst hbs
        exact .nil fs
      · obtain ⟨r, rest, v', rfl, hr, hstep, hrest⟩ := Fields.record_of_decode hbs h
        have hlt := fs.step_shrinks _ _ _ _ hstep
        exact .copy hr (padded_self n rest (by omega) v' w hrest)

/-- On an input whose tags fit the class, a turn of the loop leaves what the
grammar's record leaves. -/
theorem Fields.skipRecord_of_step (hfs : fs.WellFormed) (hfits : fs.EveryTag Fields.FitsAt bs)
    {v v' : fs.Value} {rest : Bytes} (h : decodeStep fs.record bs v = some (rest, v')) :
    skipRecord bs = some rest := by
  obtain ⟨⟨key, tail⟩, htag, hrecord⟩ := Option.bind_eq_some_iff.mp h
  have hkey := hfits bs (.here bs) key tail htag
  have hfollows : fs.record key tail v = some (rest, v') := hrecord
  rw [Fields.followsAt hkey.1 (fun hvalid => Fields.record_eq hfs hvalid hkey.2) v] at hfollows
  obtain ⟨⟨p, rest'⟩, hpayload, hupdate⟩ := Option.bind_eq_some_iff.mp hfollows
  obtain ⟨u, -, heq⟩ := Option.map_eq_some_iff.mp hupdate
  obtain ⟨rfl, rfl⟩ := Prod.mk.inj heq
  simp only [skipRecord, readRecord, htag, Option.bind_some, hpayload, Option.map_some]

/-- A record may be inserted wherever, by the wire grammar, a record starts or
the input ends, if all tags fit. -/
theorem Fields.padded_insert (hfs : fs.WellFormed) {u : Bytes} (hu : fs.IsUnknown u) {tail : Bytes}
    (hstart : Starts skipRecord bs tail) : fs.EveryTag Fields.FitsAt bs →
      ∀ v w : fs.Value, fs.decode bs v = some w →
        ∃ pre, bs = pre ++ tail ∧ fs.Padded bs (pre ++ (u ++ tail)) := by
  induction hstart with
  | here bs =>
      intro _ v w h
      have hself := Fields.padded_self bs.length bs (Nat.le_refl _) v w h
      refine ⟨[], rfl, ?_⟩
      rw [List.nil_append]
      exact .insert hu hself
  | @next bs rest tail hskip _ ih =>
      intro hfits v w h
      have hne : bs ≠ [] := by
        rintro rfl
        cases hskip
      obtain ⟨r, rest', v', rfl, hr, hstep, hdecode⟩ := Fields.record_of_decode hne h
      have hsame := (Fields.skipRecord_of_step hfs hfits hstep).symm.trans hskip
      obtain rfl := Option.some_inj.mp hsame
      have hrest : fs.EveryTag Fields.FitsAt rest' := fun tail hstart =>
        hfits tail (.next hskip hstart)
      obtain ⟨pre, rfl, hpadded⟩ := ih hrest v' w hdecode
      refine ⟨r ++ pre, by rw [List.append_assoc], ?_⟩
      rw [List.append_assoc]
      exact .copy hr hpadded

end EsphomeApi.Proto
