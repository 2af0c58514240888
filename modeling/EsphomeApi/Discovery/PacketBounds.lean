/-
EsphomeApi.Discovery.PacketBounds — what parsing a packet reads, and how far it
goes.

A read outside the packet has no result in the model, and neither has a loop
that does not end; so `readName_eq_some`, `readRecord_eq_some` and
`parsePacket_eq` already say that neither happens. What is left are the
positions. `read_name` may stop where it began, but it never returns a position
before that (`readNameLoop_le`); the ten bytes between the name and the data of
a record are therefore what a record is sure to take, and the records of a
packet are no more than its bytes allow, whatever its counts say
(`recordsLoop_bound`).
-/
import EsphomeApi.Discovery.Packet

namespace EsphomeApi.Discovery

/-! ## `read_name` does not go back -/

theorem NameState.result_le_jump (s : NameState) (target : Nat) :
    s.result ≤ (s.jump target).result := by
  simp only [result, jump]
  split <;> simp

theorem NameState.result_le_label (s : NameState) (label : CString) :
    s.result ≤ (s.label label).result := by
  cases hjumped : s.jumped
  · simp only [result, NameState.label, hjumped, Bool.false_eq_true, if_false]
    omega
  · simp only [result, NameState.label, hjumped, if_true, le_refl]

theorem NameState.result_le_root (s : NameState) :
    s.result ≤ ({ s with pos := s.pos + 1 } : NameState).result := by
  simp only [result]
  split <;> omega

/-- The position that `read_name` would return never gets smaller: it grows
with each label until the first jump, which fixes it. -/
theorem readNameLoop_le (buf : Bytes) : ∀ (fuel : Nat) (s t : NameState),
    readNameLoop buf fuel s = some t → s.result ≤ t.result
  | 0, _, _, h => nomatch h
  | fuel + 1, s, t, h => by
      unfold readNameLoop at h
      split at h
      · rename_i hpos
        rw [List.getElem?_eq_getElem hpos] at h
        simp only [Option.bind_eq_bind, Option.bind_some] at h
        split at h
        · split at h
          · cases h
            exact le_refl _
          · rename_i hlow
            rw [List.getElem?_eq_getElem (by omega)] at h
            simp only [Option.bind_some] at h
            split at h
            · cases h
              exact s.result_le_jump _
            · exact (s.result_le_jump _).trans (readNameLoop_le buf fuel _ t h)
        · split at h
          · cases h
            exact s.result_le_root
          · split at h
            · cases h
              exact le_refl _
            · rename_i hlabel
              rw [readBytes, if_pos (by omega)] at h
              exact (s.result_le_label _).trans (readNameLoop_le buf fuel _ t h)
      · cases h
        exact le_refl _

theorem readName_le {buf : Bytes} {pos next : Nat} {name : CString}
    (h : readName buf pos = some (name, next)) : pos ≤ next := by
  obtain ⟨t, ht, hresult⟩ := Option.map_eq_some_iff.mp h
  obtain ⟨-, rfl⟩ := Prod.mk.inj hresult
  exact readNameLoop_le buf _ _ t ht

/-! ## A record takes ten bytes -/

/-- A record is a name, ten bytes and its data, all inside the packet. -/
theorem readRecord_bound {buf : Bytes} {pos next : Nat} {record : Record}
    (h : readRecord buf pos = some (some (record, next))) :
    pos + 10 ≤ next ∧ next ≤ buf.length := by
  obtain ⟨name, after, hname⟩ := readName_eq_some buf pos
  have hle := readName_le hname
  unfold readRecord at h
  simp only [hname, Option.bind_eq_bind, Option.bind_some] at h
  split at h
  · cases h
  · obtain ⟨type, htype⟩ := readU16_eq_some (show after + 1 < buf.length by omega)
    obtain ⟨rdlen, hrdlen⟩ := readU16_eq_some (show after + 8 + 1 < buf.length by omega)
    simp only [htype, hrdlen, Option.bind_some] at h
    split at h
    · cases h
    · obtain ⟨r, hr⟩ := recordOf_eq_some name type
        (show after + 10 + rdlen.toNat ≤ buf.length by omega)
      rw [hr] at h
      cases h
      omega

theorem skipQuestions_le {buf : Bytes} {qd pos next : Nat}
    (h : skipQuestions buf qd pos = some next) : pos ≤ next := by
  induction qd generalizing pos with
  | zero =>
      cases h
      exact le_refl _
  | succ qd ih =>
      unfold skipQuestions at h
      split at h
      · obtain ⟨name, after, hname⟩ := readName_eq_some buf pos
        have hle := readName_le hname
        simp only [hname, Option.bind_eq_bind, Option.bind_some] at h
        have := ih h
        omega
      · cases h
        exact le_refl _

/-- Records are only read as long as there are ten bytes for each. -/
theorem recordsLoop_bound {buf : Bytes} {count pos : Nat} {rs : List Record}
    (h : recordsLoop buf count pos = some rs) :
    rs = [] ∨ pos + 10 * rs.length ≤ buf.length := by
  induction count generalizing pos rs with
  | zero =>
      cases h
      exact .inl rfl
  | succ count ih =>
      unfold recordsLoop at h
      split at h
      · obtain ⟨turn, hturn⟩ := readRecord_eq_some buf pos
        rw [hturn] at h
        cases turn with
        | none =>
            cases h
            exact .inl rfl
        | some turn =>
            obtain ⟨hten, hinside⟩ := readRecord_bound hturn
            obtain ⟨rest, hrest⟩ := recordsLoop_eq_some buf count turn.2
            simp only [Option.bind_eq_bind, Option.bind_some, hrest] at h
            cases h
            right
            rw [List.length_cons]
            rcases ih hrest with rfl | hbound
            · simp only [List.length_nil]
              omega
            · omega
      · cases h
        exact .inl rfl

/-- The header and ten bytes for each record are bytes of the packet. -/
theorem records_bound (buf : Bytes) :
    records buf = [] ∨ 12 + 10 * (records buf).length ≤ buf.length := by
  rcases Nat.lt_or_ge buf.length 12 with hshort | hlong
  · left
    rw [records, packetRecords, if_pos hshort, Option.getD_some]
  · obtain ⟨qd, count, pos, rs, hpos, hloop, hrs⟩ := packetRecords_of_ge hlong
    have hstart := skipQuestions_le hpos
    rw [records, hrs, Option.getD_some]
    rcases recordsLoop_bound hloop with hnil | hbound
    · exact .inl hnil
    · exact .inr (by omega)

/-! ## Parsing is safe -/

/-- On any bytes `parse_packet` returns and reads nothing outside them. Neither
do `read_name`, which returns no position before its own, and the reading of a
record, at any position; each record takes ten bytes at least. -/
theorem parsePacket_safe (buf : Bytes) :
    (∀ acc, ∃ acc', parsePacket buf acc = some acc') ∧
    (∀ pos, ∃ name next, readName buf pos = some (name, next) ∧ pos ≤ next) ∧
    (∀ pos, ∃ turn, readRecord buf pos = some turn ∧
      ∀ record next, turn = some (record, next) → pos + 10 ≤ next ∧ next ≤ buf.length) ∧
    (records buf = [] ∨ 12 + 10 * (records buf).length ≤ buf.length) := by
  refine ⟨fun acc => ⟨_, parsePacket_eq buf acc⟩, fun pos => ?_, fun pos => ?_,
    records_bound buf⟩
  · obtain ⟨name, next, hname⟩ := readName_eq_some buf pos
    exact ⟨name, next, hname, readName_le hname⟩
  · obtain ⟨turn, hturn⟩ := readRecord_eq_some buf pos
    refine ⟨turn, hturn, ?_⟩
    rintro record next rfl
    exact readRecord_bound hturn

end EsphomeApi.Discovery
