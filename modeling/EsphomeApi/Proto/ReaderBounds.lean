/-
EsphomeApi.Proto.ReaderBounds — where the generated `decode` reads, that it
ends, and what it returns once a read has failed.

`Reading.Goes` is what every function of the reader keeps, whether it succeeds
or not: the pointer moves forward, not past the end, and what is written to the
log meanwhile is confined to the bytes in between. It is transitive, and
`Reading.Goes.resume` adds what a sub-reader does, in its part of the range.
`Reading.Clean` is what a success keeps: nothing has happened that ends in
`false`. Each function has one lemma with the two (`Reading.Spec`); the loops
follow by induction on the fuel, with the bytes that are left as the measure,
for a turn takes a byte and a region is no longer than what is left.
-/
import EsphomeApi.Proto.Reader

namespace EsphomeApi.Proto

/-! ## What may happen -/

/-- The event stays between `lo` and `hi`. -/
def ReaderEvent.Confined (lo hi : Nat) : ReaderEvent → Prop
  | .read address => lo ≤ address ∧ address < hi
  | .failed => True
  | .region parent sub => parent.ptr ≤ sub.ptr ∧ sub.ptr ≤ sub.end_ ∧ sub.end_ ≤ parent.end_
  | .fieldTurn before after => before < after
  | .elementTurn type before after end_ =>
      before < after ∨ ∃ n, type.fixedSize = some n ∧ end_ < before + n

/-- What only happens when `decode` is about to return `false`. -/
def ReaderEvent.Stops : ReaderEvent → Prop
  | .failed => True
  | .elementTurn _ before after _ => after ≤ before
  | _ => False

theorem ReaderEvent.Confined.mono {lo hi lo' hi' : Nat} {e : ReaderEvent} (h : e.Confined lo hi)
    (hlo : lo' ≤ lo) (hhi : hi ≤ hi') : e.Confined lo' hi' := by
  cases e with
  | read address => exact ⟨hlo.trans h.1, h.2.trans_le hhi⟩
  | failed => trivial
  | region parent sub => exact h
  | fieldTurn before after => exact h
  | elementTurn type before after end_ => exact h

theorem ProtoReader.ptr_lt_of_not_eof {r : ProtoReader} (h : ¬ r.eof = true) : r.ptr < r.end_ := by
  simpa [ProtoReader.eof] using h

theorem ProtoReader.not_eof {r : ProtoReader} (h : r.ptr < r.end_) : ¬ r.eof = true := by
  simpa [ProtoReader.eof] using h

namespace Reading

/-- The reader goes forward in its range, and so does all that happens. -/
structure Goes (r r' : Reading) : Prop where
  end_eq : r'.reader.end_ = r.reader.end_
  ptr_le : r.reader.ptr ≤ r'.reader.ptr
  ptr_end : r'.reader.ptr ≤ r.reader.end_
  log_eq : ∃ new, r'.log = r.log ++ new ∧
    ∀ e ∈ new, e.Confined r.reader.ptr r.reader.end_

/-- Nothing has gone wrong. -/
structure Clean (r r' : Reading) : Prop where
  ok_eq : r'.reader.ok = r.reader.ok
  stops : ∀ e ∈ r'.log, e.Stops → e ∈ r.log

/-- What a function of the reader does, that returns `done`. -/
structure Spec (r : Reading) (result : Bool × Reading) : Prop where
  goes : r.Goes result.2
  clean : result.1 = true → r.Clean result.2
  failed : result.1 = false → result.2.reader.ok = false

variable {mem : Memory} {r r' r'' : Reading} {n : Nat}

theorem Clean.refl (r : Reading) : r.Clean r := ⟨rfl, fun _ h _ => h⟩

theorem Clean.trans (h : r.Clean r') (h' : r'.Clean r'') : r.Clean r'' where
  ok_eq := h'.ok_eq.trans h.ok_eq
  stops e he hstops := h.stops e (h'.stops e he hstops) hstops

theorem Goes.refl (h : r.reader.ptr ≤ r.reader.end_) : r.Goes r where
  end_eq := rfl
  ptr_le := le_rfl
  ptr_end := h
  log_eq := ⟨[], by simp⟩

theorem Goes.trans (h : r.Goes r') (h' : r'.Goes r'') : r.Goes r'' where
  end_eq := h'.end_eq.trans h.end_eq
  ptr_le := h.ptr_le.trans h'.ptr_le
  ptr_end := h'.ptr_end.trans h.end_eq.le
  log_eq := by
    obtain ⟨new, hlog, hnew⟩ := h.log_eq
    obtain ⟨new', hlog', hnew'⟩ := h'.log_eq
    refine ⟨new ++ new', by rw [hlog', hlog, List.append_assoc], fun e he => ?_⟩
    rcases List.mem_append.mp he with he | he
    · exact hnew e he
    · exact (hnew' e he).mono h.ptr_le h.end_eq.le

/-! ## The functions of the reader -/

theorem Goes.note (h : r.reader.ptr ≤ r.reader.end_) {e : ReaderEvent}
    (he : e.Confined r.reader.ptr r.reader.end_) : r.Goes (r.note e) where
  end_eq := rfl
  ptr_le := le_rfl
  ptr_end := h
  log_eq := ⟨[e], rfl, by simpa using he⟩

theorem Clean.note {e : ReaderEvent} (he : ¬ e.Stops) : r.Clean (r.note e) where
  ok_eq := rfl
  stops e' he' hstops := by
    rcases List.mem_append.mp he' with hold | hnew
    · exact hold
    · exact absurd (List.mem_singleton.mp hnew ▸ hstops) he

theorem Goes.fail (h : r.reader.ptr ≤ r.reader.end_) : r.Goes r.fail where
  end_eq := rfl
  ptr_le := le_rfl
  ptr_end := h
  log_eq := ⟨[.failed], rfl, by simp [ReaderEvent.Confined]⟩

theorem Spec.fail (h : r.reader.ptr ≤ r.reader.end_) : r.Spec (false, r.fail) where
  goes := .fail h
  clean := nofun
  failed _ := rfl

theorem Goes.skip (h : r.reader.ptr + n ≤ r.reader.end_) : r.Goes (r.skip n) where
  end_eq := rfl
  ptr_le := Nat.le_add_right ..
  ptr_end := h
  log_eq := ⟨[], by simp [Reading.skip]⟩

theorem Goes.take (h : r.reader.ptr + n ≤ r.reader.end_) : r.Goes (r.take n) where
  end_eq := rfl
  ptr_le := Nat.le_add_right ..
  ptr_end := h
  log_eq := by
    refine ⟨_, rfl, fun e he => ?_⟩
    obtain ⟨i, hi, rfl⟩ := List.mem_map.mp he
    have hlt := List.mem_range.mp hi
    exact ⟨Nat.le_add_right .., by omega⟩

theorem Clean.take : r.Clean (r.take n) where
  ok_eq := rfl
  stops e he hstops := by
    rcases List.mem_append.mp he with hold | hnew
    · exact hold
    · obtain ⟨i, -, rfl⟩ := List.mem_map.mp hnew
      exact hstops.elim

theorem Spec.take (h : r.reader.ptr + n ≤ r.reader.end_) : r.Spec (true, r.take n) where
  goes := .take h
  clean _ := .take
  failed := nofun

/-- A success before a function. -/
theorem Spec.after {result : Bool × Reading} (hgoes : r.Goes r') (hclean : r.Clean r')
    (h : r'.Spec result) : r.Spec result where
  goes := hgoes.trans h.goes
  clean hdone := hclean.trans (h.clean hdone)
  failed := h.failed

theorem varintLoop_spec (mem : Memory) : ∀ (n shift : Nat) (result : BitVec 64) (r : Reading),
    r.reader.ptr ≤ r.reader.end_ → r.Spec (succeeded (r.varintLoop mem n shift result))
  | 0, _, _, _, h => .fail h
  | n + 1, shift, result, r, h => by
      unfold varintLoop
      split
      · exact .fail h
      · rename_i heof
        have hbyte : r.reader.ptr + 1 ≤ r.reader.end_ := ProtoReader.ptr_lt_of_not_eof heof
        have htake : r.Goes (r.take 1) := .take hbyte
        dsimp only
        split
        · exact .take hbyte
        · exact .after htake .take
            (varintLoop_spec mem n (shift + 7) _ (r.take 1) (htake.ptr_end.trans htake.end_eq.ge))

theorem varint_spec (mem : Memory) (h : r.reader.ptr ≤ r.reader.end_) :
    r.Spec (succeeded (r.varint mem)) :=
  varintLoop_spec mem 10 0 0 r h

/-- Where there is a byte, `varint` takes one. -/
theorem varint_advances (mem : Memory) (h : r.reader.ptr < r.reader.end_) :
    r.reader.ptr < (r.varint mem).2.reader.ptr := by
  rw [varint, varintLoop, if_neg (ProtoReader.not_eof h)]
  dsimp only
  split
  · exact Nat.lt_succ_self _
  · exact (Nat.lt_succ_self _).trans_le (varintLoop_spec mem 9 7 _ (r.take 1) h).goes.ptr_le

theorem fixed_spec (mem : Memory) (w bytes : Nat) (h : r.reader.ptr ≤ r.reader.end_) :
    r.Spec (succeeded (r.fixed mem w bytes)) := by
  unfold fixed
  split
  · exact .fail h
  · rename_i hfits
    have hbytes : r.reader.ptr + bytes ≤ r.reader.end_ := by
      unfold ProtoReader.distance at hfits
      omega
    exact .take hbytes

/-- `fixed32` and `fixed64` take their bytes, unless there are too few. -/
theorem fixed_advances (mem : Memory) (w : Nat) {bytes : Nat} (hbytes : 0 < bytes) :
    r.reader.ptr < (r.fixed mem w bytes).2.reader.ptr ∨
      r.reader.end_ < r.reader.ptr + bytes ∧ (r.fixed mem w bytes).1 = none := by
  unfold fixed
  split
  · rename_i hshort
    unfold ProtoReader.distance at hshort
    exact .inr ⟨by omega, rfl⟩
  · exact .inl (Nat.lt_add_of_pos_right hbytes)

/-- A length that is let through is not more than what is left. -/
theorem region_fits (h : r.reader.ptr ≤ r.reader.end_) {len : BitVec 64}
    (hlen : ¬ BitVec.ofInt 64 r.reader.distance < len) :
    r.reader.ptr + len.toNat ≤ r.reader.end_ := by
  rw [BitVec.lt_def, BitVec.toNat_ofInt, ProtoReader.distance] at hlen
  omega

theorem regionLength_spec (mem : Memory) (h : r.reader.ptr ≤ r.reader.end_) :
    r.Spec (succeeded (r.regionLength mem)) ∧
      ∀ len, (r.regionLength mem).1 = some len →
        (r.regionLength mem).2.reader.ptr + len ≤ r.reader.end_ := by
  have hvarint := varint_spec mem h
  unfold regionLength
  generalize r.varint mem = result at hvarint
  obtain ⟨len | len, next⟩ := result
  · exact ⟨⟨hvarint.goes, nofun, hvarint.failed⟩, nofun⟩
  · have hnext : next.reader.ptr ≤ next.reader.end_ :=
      hvarint.goes.ptr_end.trans hvarint.goes.end_eq.ge
    dsimp only
    split
    · exact ⟨.after hvarint.goes (hvarint.clean rfl) (.fail hnext), nofun⟩
    · rename_i hfits
      have hregion := region_fits hnext hfits
      refine ⟨⟨hvarint.goes, hvarint.clean, nofun⟩, ?_⟩
      rintro _ ⟨⟩
      exact hregion.trans hvarint.goes.end_eq.le

theorem lengthDelimited_spec (mem : Memory) (h : r.reader.ptr ≤ r.reader.end_) :
    r.Spec (succeeded (r.lengthDelimited mem)) := by
  obtain ⟨hlength, hfits⟩ := regionLength_spec mem h
  unfold lengthDelimited
  generalize r.regionLength mem = result at hlength hfits
  obtain ⟨len | len, next⟩ := result
  · exact ⟨hlength.goes, nofun, hlength.failed⟩
  · exact .after hlength.goes (hlength.clean rfl)
      (.take ((hfits len rfl).trans hlength.goes.end_eq.ge))

theorem skipField_spec (mem : Memory) (wt : WireType) (h : r.reader.ptr ≤ r.reader.end_) :
    r.Spec (r.skipField mem wt) := by
  unfold skipField
  split
  · exact varint_spec mem h
  split
  · exact fixed_spec mem 64 8 h
  split
  · exact fixed_spec mem 32 4 h
  split
  · obtain ⟨hlength, hfits⟩ := regionLength_spec mem h
    generalize r.regionLength mem = result at hlength hfits
    obtain ⟨len | len, next⟩ := result
    · exact ⟨hlength.goes, nofun, hlength.failed⟩
    · refine .after hlength.goes (hlength.clean rfl) ⟨?_, fun _ => ⟨rfl, fun _ he _ => he⟩, nofun⟩
      exact .skip ((hfits len rfl).trans hlength.goes.end_eq.ge)
  · exact .fail h

theorem readRaw_spec (mem : Memory) (type : ScalarType) (h : r.reader.ptr ≤ r.reader.end_) :
    r.Spec (r.readRaw mem type) := by
  unfold readRaw
  split
  · exact fixed_spec mem _ _ h
  · exact varint_spec mem h

/-- An element takes a byte, unless it is of a fixed size and there are fewer
bytes than that. -/
theorem readRaw_advances (mem : Memory) (type : ScalarType) (h : r.reader.ptr < r.reader.end_) :
    r.reader.ptr < (r.readRaw mem type).2.reader.ptr ∨
      (r.readRaw mem type).1 = false ∧
        ∃ n, type.fixedSize = some n ∧ r.reader.end_ < r.reader.ptr + n := by
  have hpos : ∀ n, type.fixedSize = some n → 0 < n := by
    intro n hn
    cases type <;> cases hn <;> decide
  unfold readRaw
  split
  · rename_i n hn
    rcases fixed_advances mem (8 * n) (hpos n hn) with hless | ⟨hshort, hnone⟩
    · exact .inl hless
    · exact .inr ⟨by rw [succeeded, hnone]; rfl, n, hn, hshort⟩
  · exact .inl (varint_advances mem h)

/-- A tag that is read has taken a byte; without one the loop ends. -/
theorem readTag_spec (mem : Memory) (h : r.reader.ptr ≤ r.reader.end_) :
    r.Goes (r.readTag mem).2 ∧
      ((r.readTag mem).1 = none → (r.readTag mem).2.reader.ok = true → r.Clean (r.readTag mem).2) ∧
      ∀ key, (r.readTag mem).1 = some key →
        r.Clean (r.readTag mem).2 ∧ r.reader.ptr < (r.readTag mem).2.reader.ptr := by
  unfold readTag
  split
  · exact ⟨.refl h, fun _ _ => .refl r, nofun⟩
  · rename_i heof
    have hvarint := varint_spec mem h
    have hless := varint_advances mem (ProtoReader.ptr_lt_of_not_eof heof)
    generalize r.varint mem = result at hvarint hless
    obtain ⟨word | word, next⟩ := result
    · refine ⟨hvarint.goes, fun _ hok => ?_, nofun⟩
      exact absurd ((hvarint.failed rfl).symm.trans hok) Bool.false_ne_true
    · exact ⟨hvarint.goes, nofun, fun _ _ => ⟨hvarint.clean rfl, hless⟩⟩

/-! ## Sub-readers -/

theorem subReader_spec (mem : Memory) (h : r.reader.ptr ≤ r.reader.end_) :
    r.Spec (succeeded (r.subReader mem)) ∧
      ∀ sub, (r.subReader mem).1 = some sub →
        r.reader.ptr ≤ sub.ptr ∧ sub.ptr ≤ sub.end_ ∧ sub.end_ ≤ r.reader.end_ ∧ sub.ok = true := by
  obtain ⟨hlength, hfits⟩ := regionLength_spec mem h
  unfold subReader
  generalize r.regionLength mem = result at hlength hfits
  obtain ⟨len | len, next⟩ := result
  · exact ⟨⟨hlength.goes, nofun, hlength.failed⟩, nofun⟩
  · have hgoes : r.Goes next := hlength.goes
    have hregion : next.reader.ptr + len ≤ r.reader.end_ := hfits len rfl
    have hnext : next.reader.ptr + len ≤ next.reader.end_ := hregion.trans hgoes.end_eq.ge
    have hnote : next.Goes
        (next.note (.region next.reader ⟨next.reader.ptr, next.reader.ptr + len, true⟩)) :=
      .note ((Nat.le_add_right ..).trans hnext) ⟨le_rfl, Nat.le_add_right .., hnext⟩
    have hclean : r.Clean next := hlength.clean rfl
    refine ⟨.after (hgoes.trans hnote) (hclean.trans (.note nofun)) ⟨.skip hnext, ?_, nofun⟩, ?_⟩
    · exact fun _ => ⟨rfl, fun _ he _ => he⟩
    · rintro _ ⟨⟩
      exact ⟨hgoes.ptr_le, Nat.le_add_right .., hregion, rfl⟩

/-- What a sub-reader does happens in its part of the range. -/
theorem Goes.resume {sub : ProtoReader} {inner : Bool × Reading} (h : r.Goes r')
    (hlow : r.reader.ptr ≤ sub.ptr) (hhigh : sub.end_ ≤ r.reader.end_)
    (hinner : Goes { reader := sub, log := r'.log } inner.2) : r.Goes (r'.resume inner).2 where
  end_eq := h.end_eq
  ptr_le := h.ptr_le
  ptr_end := h.ptr_end
  log_eq := by
    obtain ⟨new, hlog, hnew⟩ := h.log_eq
    obtain ⟨new', hlog', hnew'⟩ := hinner.log_eq
    refine ⟨new ++ new', ?_, fun e he => ?_⟩
    · rw [Reading.resume, hlog', hlog, List.append_assoc]
    · rcases List.mem_append.mp he with he | he
      · exact hnew e he
      · exact (hnew' e he).mono hlow hhigh

/-- What a body does on any reader that has fewer bytes left than `fuel`: it
ends, and a success is clean. -/
def Ends (fuel : Nat) (body : Reading → Option (Bool × Reading)) : Prop :=
  ∀ r : Reading, r.reader.ptr ≤ r.reader.end_ → r.reader.end_ < r.reader.ptr + fuel →
    r.reader.ok = true →
    ∃ result, body r = some result ∧ r.Goes result.2 ∧ (result.1 = true → r.Clean result.2)

theorem withSub_ends (mem : Memory) {fuel : Nat} {body : Reading → Option (Bool × Reading)}
    (hbody : Ends fuel body) : Ends fuel fun r => r.withSub mem body := by
  intro r h hfuel hok
  obtain ⟨hsub, hregion⟩ := subReader_spec mem h
  simp only [withSub]
  generalize r.subReader mem = result at hsub hregion
  obtain ⟨sub | sub, next⟩ := result
  · exact ⟨(false, next), rfl, hsub.goes, nofun⟩
  · obtain ⟨hlow, hsome, hhigh, hsubok⟩ := hregion sub rfl
    obtain ⟨inner, hinner, hgoes, hclean⟩ :=
      hbody { reader := sub, log := next.log } hsome (by dsimp only; omega) hsubok
    have hnext : r.Clean next := hsub.clean rfl
    refine ⟨next.resume inner, congrArg (Option.map next.resume) hinner,
      .resume hsub.goes hlow hhigh hgoes, ?_⟩
    intro hdone
    exact ⟨hnext.ok_eq, fun e he hstops => hnext.stops e ((hclean hdone).stops e he hstops) hstops⟩

/-- A turn of the packed loop takes a byte or fails. -/
theorem packedLoop_ends (mem : Memory) (type : ScalarType) :
    ∀ fuel, Ends fuel (packedLoop mem type fuel)
  | 0 => fun r h hfuel _ => by omega
  | fuel + 1 => fun r h hfuel hok => by
      simp only [packedLoop]
      split
      · exact ⟨_, rfl, .refl h, fun _ => .refl r⟩
      · rename_i heof
        have hbyte := ProtoReader.ptr_lt_of_not_eof heof
        have hraw := readRaw_spec mem type h
        have hadvances := readRaw_advances mem type hbyte
        generalize r.readRaw mem type = result at hraw hadvances
        obtain ⟨done, next⟩ := result
        have hgoes : r.Goes next := hraw.goes
        have hnext : next.reader.ptr ≤ next.reader.end_ := hgoes.ptr_end.trans hgoes.end_eq.ge
        have hturn : r.Goes (next.note
            (.elementTurn type r.reader.ptr next.reader.ptr next.reader.end_)) := by
          refine hgoes.trans (.note hnext ?_)
          refine hadvances.imp id ?_
          rintro ⟨-, n, hn, hshort⟩
          exact ⟨n, hn, by rw [hgoes.end_eq]; exact hshort⟩
        cases done with
        | false => exact ⟨_, rfl, hturn, nofun⟩
        | true =>
            have hless : r.reader.ptr < next.reader.ptr :=
              hadvances.resolve_right fun hfailed => Bool.noConfusion hfailed.1
            have hclean : r.Clean (next.note
                (.elementTurn type r.reader.ptr next.reader.ptr next.reader.end_)) :=
              (hraw.clean rfl).trans (.note (Nat.not_le_of_lt hless))
            have hend := hturn.end_eq
            obtain ⟨result, hresult, hrest, hdone⟩ := packedLoop_ends mem type fuel _
              (hturn.ptr_end.trans hend.ge) (by rw [hend]; simp only [note]; omega)
              (hclean.ok_eq.trans hok)
            exact ⟨result, hresult, hturn.trans hrest, fun h => hclean.trans (hdone h)⟩

/-! ## `decode` -/

theorem Spec.ends {body : Reading → Bool × Reading} (fuel : Nat)
    (h : ∀ r : Reading, r.reader.ptr ≤ r.reader.end_ → r.Spec (body r)) :
    Ends fuel fun r => some (body r) := fun r hr _ _ =>
  ⟨body r, rfl, (h r hr).goes, (h r hr).clean⟩

theorem decodeField_ends (mem : Memory) {fuel : Nat}
    {decode : CString → Reading → Option (Bool × Reading)}
    (hdecode : ∀ name, Ends fuel (decode name)) (f : ProtoField) (wt : WireType) :
    Ends fuel (decodeField mem decode fuel f wt) := by
  unfold decodeField
  split
  · exact withSub_ends mem (hdecode f.typeName)
  · exact Spec.ends fuel fun r => lengthDelimited_spec mem
  · exact Spec.ends fuel fun r => lengthDelimited_spec mem
  · rename_i type _
    split
    · exact withSub_ends mem (packedLoop_ends mem type fuel)
    · exact Spec.ends fuel fun r => readRaw_spec mem type

theorem decodeRecord_ends (mem : Memory) {fuel : Nat}
    {decode : CString → Reading → Option (Bool × Reading)}
    (hdecode : ∀ name, Ends fuel (decode name)) (fields : List ProtoField) (key : Key) :
    Ends fuel (decodeRecord mem decode fuel fields key) := by
  unfold decodeRecord
  split
  · exact decodeField_ends mem hdecode _ _
  · exact Spec.ends fuel fun r => skipField_spec mem key.wireType

end Reading

open Reading

/-- `decode` ends on every reader with fewer bytes than fuel. -/
theorem decodeLoop_ends (mem : Memory) (S : Schema) :
    ∀ (fuel : Nat) (name : CString), Ends fuel (decodeLoop mem S fuel name)
  | 0, _ => fun r h hfuel _ => by omega
  | fuel + 1, name => fun r h hfuel hok => by
      obtain ⟨htag, hnone, hsome⟩ := readTag_spec mem h
      simp only [decodeLoop]
      generalize r.readTag mem = result at htag hnone hsome
      obtain ⟨key | key, tagged⟩ := result
      · exact ⟨_, rfl, htag, hnone rfl⟩
      · obtain ⟨hclean, hless⟩ := hsome key rfl
        have hgoes : r.Goes tagged := htag
        have hend := hgoes.end_eq
        have hin := hgoes.ptr_end
        simp only at hless
        obtain ⟨⟨done, next⟩, hrecord, hnext, hdone⟩ :=
          decodeRecord_ends mem (decodeLoop_ends mem S fuel) (S name) key tagged
            (hin.trans hend.ge) (by omega) (hclean.ok_eq.trans hok)
        have hturn : r.Goes (next.note (.fieldTurn r.reader.ptr next.reader.ptr)) := by
          have hboth : r.Goes next := hgoes.trans hnext
          exact hboth.trans (.note (hboth.ptr_end.trans hboth.end_eq.ge)
            (hless.trans_le hnext.ptr_le))
        simp only [hrecord]
        cases done with
        | false => exact ⟨_, rfl, hturn, nofun⟩
        | true =>
            have hkept : r.Clean (next.note (.fieldTurn r.reader.ptr next.reader.ptr)) :=
              (hclean.trans (hdone rfl)).trans (.note nofun)
            have hturnEnd := hturn.end_eq
            have hptr := hnext.ptr_le
            obtain ⟨result, hresult, hrest, hlast⟩ := decodeLoop_ends mem S fuel name _
              (hturn.ptr_end.trans hturnEnd.ge) (by rw [hturnEnd]; simp only [note] at *; omega)
              (hkept.ok_eq.trans hok)
            exact ⟨result, hresult, hturn.trans hrest, fun h => hkept.trans (hlast h)⟩

/-! ## `decode` of a range -/

/-- For every schema and every bytes, `decode` returns. What it reads is in its
range, and a region it gives to another reader in what that reader's parent has
left. A turn of the loop over the fields takes a byte; so does a turn over the
elements of a packed field, unless they are of a fixed size and fewer bytes than
that are left, and then `decode` returns `false`. It does so after any read that
fails. -/
theorem decodeRange_confined (mem : Memory) (S : Schema) (name : CString) (base size : Nat) :
    ∃ done r, decodeRange mem S name base size = some (done, r) ∧
      (∀ address, .read address ∈ r.log → base ≤ address ∧ address < base + size) ∧
      (∀ parent sub, .region parent sub ∈ r.log →
        parent.ptr ≤ sub.ptr ∧ sub.ptr ≤ sub.end_ ∧ sub.end_ ≤ parent.end_) ∧
      (∀ before after, .fieldTurn before after ∈ r.log → before < after) ∧
      (∀ type before after end_, .elementTurn type before after end_ ∈ r.log →
        before < after ∨
          done = false ∧ ∃ n, type.fixedSize = some n ∧ end_ < before + n) ∧
      (.failed ∈ r.log → done = false) := by
  obtain ⟨⟨done, r⟩, hdecode, hgoes, hclean⟩ := decodeLoop_ends mem S (size + 1) name
    { reader := { ptr := base, end_ := base + size } } (Nat.le_add_right base size)
    (Nat.lt_succ_self (base + size)) rfl
  obtain ⟨new, hlog, hconfined⟩ := hgoes.log_eq
  have hevent : ∀ e ∈ r.log, e.Confined base (base + size) := fun e he =>
    hconfined e (by rwa [← List.nil_append new, ← hlog])
  have hstops : ∀ e ∈ r.log, e.Stops → done = false := fun e he hstop =>
    Bool.eq_false_iff.mpr fun hdone => nomatch (hclean hdone).stops e he hstop
  refine ⟨done, r, hdecode, fun _ h => hevent _ h, fun _ _ h => hevent _ h,
    fun _ _ h => hevent _ h, fun type before after end_ h => ?_, fun h => hstops _ h trivial⟩
  rcases Nat.lt_or_ge before after with hless | hstalled
  · exact .inl hless
  · exact .inr ⟨hstops _ h hstalled, (hevent _ h).resolve_left (Nat.not_lt_of_le hstalled)⟩

/-- A message with one packed field of `fixed32`. -/
def packedMessage : ProtoMessageDef where
  name := lit "M"
  fields := [{ type := .scalar .fixed32, number := 1, repeated := true }]

/-- The field, with a region of three bytes. -/
def truncatedPacked : Memory := fun address => [0x0A, 3, 1, 2, 3].getD address 0

/-- The turn that finds three bytes where it needs four takes none of them. -/
theorem packedTurn_stalls :
    ¬ ∀ (mem : Memory) (S : Schema) (name : CString) (base size : Nat) (done : Bool) (r : Reading),
      decodeRange mem S name base size = some (done, r) →
      ∀ type before after end_, .elementTurn type before after end_ ∈ r.log → before < after := by
  intro h
  have hdecode : decodeRange truncatedPacked (fileSchema [packedMessage]) (lit "M") 0 5 =
      some (false, ⟨⟨5, 5, true⟩, [.read 0, .read 1, .region ⟨2, 5, true⟩ ⟨2, 5, true⟩, .failed,
        .elementTurn .fixed32 2 2 5, .fieldTurn 0 5]⟩) := by
    decide +kernel
  exact absurd (h _ _ _ _ _ _ _ hdecode .fixed32 2 2 5 (by simp)) (by decide)

end EsphomeApi.Proto
