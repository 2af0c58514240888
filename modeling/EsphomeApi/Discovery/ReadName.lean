/-
EsphomeApi.Discovery.ReadName — DNS names in an mDNS packet: `read_u16` and
`read_name` of `discovery.cpp`.

The functions read a buffer through a pointer, so here each read says where it
reads and has no result outside the buffer; the loop of `read_name` has none
either when its fuel is used up. `readName_eq_some` shows that neither happens.

`NameAt` says what a compressed name is, without the code: labels, ended by a
zero byte or by a pointer to where another name is. `readName_of_nameAt` is
the theorem about it. The proof is an induction over `NameAt`, for a state of
the loop anywhere in a name: labels add to what is there, the position after
the name is fixed by the first jump, and `NameState.measure`, which a label
and a jump make smaller, stands for the fuel.
-/
import EsphomeApi.Bytes
import EsphomeApi.Exception

namespace EsphomeApi.Discovery

/-! ## Reading the buffer -/

/-- The `n` bytes from `buf + i` on. -/
def readBytes (buf : Bytes) (i n : Nat) : Option Bytes :=
  if i + n ≤ buf.length then some ((buf.drop i).take n) else none

/-- `read_u16(buf + i)`. -/
def readU16 (buf : Bytes) (i : Nat) : Option UInt16 := do
  let p0 ← buf[i]?
  let p1 ← buf[i + 1]?
  some ((p0.toUInt16 <<< 8) ||| p1.toUInt16)

/-! ## `read_name` -/

/-- The character `.`. -/
def dot : UInt8 := 46

/-- What `read_name` does with a label: a dot first unless the name is still
empty. -/
def appendLabel (out label : CString) : CString :=
  (if out ≠ [] then out ++ [dot] else out) ++ label

/-- The variables of `read_name`. -/
structure NameState where
  pos : Nat
  out : CString := []
  jumped : Bool := false
  next : Nat
  guard : Nat := 0
  deriving DecidableEq, Repr

/-- The variables before the first turn. -/
def NameState.start (pos : Nat) : NameState := { pos, next := pos }

/-- The position `read_name` returns. -/
def NameState.result (s : NameState) : Nat := if s.jumped then s.next else s.pos

/-- The assignments of a compression pointer to `target`. -/
def NameState.jump (s : NameState) (target : Nat) : NameState :=
  { s with
    next := if s.jumped then s.next else s.pos + 2
    jumped := true
    pos := target
    guard := s.guard + 1 }

/-- The assignments of a label. -/
def NameState.label (s : NameState) (label : CString) : NameState :=
  { s with out := appendLabel s.out label, pos := s.pos + 1 + label.length }

/-- The loop of `read_name`: the variables it ends with. -/
def readNameLoop (buf : Bytes) : Nat → NameState → Option NameState
  | 0, _ => none
  | fuel + 1, s =>
      if s.pos < buf.length then do
        let labelLen ← buf[s.pos]?
        if labelLen &&& 0xC0 = 0xC0 then
          if s.pos + 1 ≥ buf.length then some s
          else do
            let low ← buf[s.pos + 1]?
            let s := s.jump (((labelLen &&& 0x3F).toNat <<< 8) ||| low.toNat)
            if s.guard > 128 then some s else readNameLoop buf fuel s
        else if labelLen = 0 then some { s with pos := s.pos + 1 }
        else if s.pos + 1 + labelLen.toNat > buf.length then some s
        else do
          let label ← readBytes buf (s.pos + 1) labelLen.toNat
          readNameLoop buf fuel (s.label label)
      else some s

/-- Turns enough for 129 jumps and a run through the buffer after each. -/
def nameFuel (buf : Bytes) : Nat := 130 * (buf.length + 1)

/-- `read_name`: the name, and the position after it. -/
def readName (buf : Bytes) (pos : Nat) : Option (CString × Nat) :=
  (readNameLoop buf (nameFuel buf) (.start pos)).map fun s => (s.out, s.result)

/-! ## The loop ends -/

/-- What is left to do: jumps, and bytes up to the end of the buffer. -/
def NameState.measure (buf : Bytes) (s : NameState) : Nat :=
  (129 - s.guard) * (buf.length + 1) + (buf.length - s.pos)

theorem NameState.measure_jump (buf : Bytes) (s : NameState) (target : Nat)
    (hguard : s.guard ≤ 128) : (s.jump target).measure buf < s.measure buf := by
  have hjumps : 129 - s.guard = 129 - (s.guard + 1) + 1 := by omega
  simp only [measure, jump, hjumps, Nat.succ_mul]
  omega

theorem NameState.measure_label (buf : Bytes) (s : NameState) (label : CString)
    (hpos : s.pos < buf.length) : (s.label label).measure buf < s.measure buf := by
  simp only [measure, NameState.label]
  omega

theorem measure_lt_nameFuel (buf : Bytes) (pos : Nat) :
    (NameState.start pos).measure buf < nameFuel buf := by
  simp only [NameState.measure, NameState.start, nameFuel]
  omega

/-- With enough fuel the loop ends, and every read is inside the buffer. -/
theorem readNameLoop_eq_some (buf : Bytes) : ∀ (fuel : Nat) (s : NameState),
    s.measure buf < fuel → s.guard ≤ 128 → ∃ t, readNameLoop buf fuel s = some t
  | 0, _, hfuel, _ => absurd hfuel (Nat.not_lt_zero _)
  | fuel + 1, s, hfuel, hguard => by
      unfold readNameLoop
      by_cases hpos : s.pos < buf.length
      · rw [if_pos hpos, List.getElem?_eq_getElem hpos]
        simp only [Option.bind_eq_bind, Option.bind_some]
        split
        · split
          · exact ⟨s, rfl⟩
          · rename_i hlow
            rw [List.getElem?_eq_getElem (by omega)]
            simp only [Option.bind_some]
            split
            · exact ⟨_, rfl⟩
            · rename_i hmore
              have hjump := s.measure_jump buf
                (((buf[s.pos] &&& 0x3F).toNat <<< 8) ||| buf[s.pos + 1].toNat) hguard
              exact readNameLoop_eq_some buf fuel _ (by omega) (by omega)
        · split
          · exact ⟨_, rfl⟩
          · split
            · exact ⟨s, rfl⟩
            · rename_i hlabel
              have hlabel := s.measure_label buf
                ((buf.drop (s.pos + 1)).take buf[s.pos].toNat) hpos
              rw [readBytes, if_pos (by omega)]
              exact readNameLoop_eq_some buf fuel _ (by omega) hguard
      · rw [if_neg hpos]
        exact ⟨s, rfl⟩

/-- `read_name` always returns. -/
theorem readName_eq_some (buf : Bytes) (pos : Nat) : ∃ name next,
    readName buf pos = some (name, next) := by
  obtain ⟨t, ht⟩ := readNameLoop_eq_some buf (nameFuel buf) (.start pos)
    (measure_lt_nameFuel buf pos) (Nat.zero_le _)
  exact ⟨t.out, t.result, by rw [readName, ht]; rfl⟩

/-! ## Compressed names -/

/-- A name is encoded in `buf` at `pos`: its labels, how many pointers are
followed to its end, and the position after its first zero byte or pointer. -/
inductive NameAt (buf : Bytes) : Nat → List CString → Nat → Nat → Prop
  | root {pos : Nat} : buf[pos]? = some 0 → NameAt buf pos [] 0 (pos + 1)
  | label {pos pointers after : Nat} {label : CString} {labels : List CString} :
      1 ≤ label.length → label.length ≤ 63 →
      buf[pos]? = some (UInt8.ofNat label.length) →
      readBytes buf (pos + 1) label.length = some label →
      NameAt buf (pos + 1 + label.length) labels pointers after →
      NameAt buf pos (label :: labels) pointers after
  | pointer {pos target pointers after : Nat} {labels : List CString} :
      target < 2 ^ 14 → buf[pos]? = some (UInt8.ofNat (0xC0 + target / 256)) →
      buf[pos + 1]? = some (UInt8.ofNat (target % 256)) →
      NameAt buf target labels pointers after →
      NameAt buf pos labels (pointers + 1) (pos + 2)

/-- The labels joined by dots. -/
def joinLabels (labels : List CString) : CString := [dot].intercalate labels

/-- Once a label is there, each further one comes with its dot. -/
theorem foldl_appendLabel {out : CString} (hout : out ≠ []) (labels : List CString) :
    labels.foldl appendLabel out = joinLabels (out :: labels) := by
  induction labels generalizing out with
  | nil => simp [joinLabels]
  | cons label labels ih =>
      have hnext : appendLabel out label = out ++ [dot] ++ label := by simp [appendLabel, hout]
      rw [List.foldl_cons, hnext, ih (by simp)]
      cases labels <;> simp [joinLabels]

theorem NameAt.ne_nil {buf : Bytes} {pos pointers after : Nat} {labels : List CString}
    (h : NameAt buf pos labels pointers after) : ∀ label ∈ labels, label ≠ [] := by
  induction h with
  | root _ => simp
  | label hmin _ _ _ _ ih =>
      intro l hl
      rcases List.mem_cons.mp hl with rfl | hl
      · exact List.ne_nil_of_length_pos hmin
      · exact ih l hl
  | pointer _ _ _ _ ih => exact ih

theorem joinLabels_eq {labels : List CString} (h : ∀ label ∈ labels, label ≠ []) :
    joinLabels labels = labels.foldl appendLabel [] := by
  cases labels with
  | nil => rfl
  | cons label labels =>
      have hfirst : appendLabel [] label = label := by simp [appendLabel]
      rw [List.foldl_cons, hfirst, foldl_appendLabel (h label (by simp))]

/-! ## The loop in a name -/

/-- The position `read_name` will return, in a state from which the first zero
byte or pointer ends at `after`. -/
def NameState.after (s : NameState) (after : Nat) : Nat := if s.jumped then s.next else after

variable {buf : Bytes} {fuel : Nat} {s : NameState}

theorem readNameLoop_root (h : buf[s.pos]? = some 0) :
    readNameLoop buf (fuel + 1) s = some { s with pos := s.pos + 1 } := by
  obtain ⟨hpos, _⟩ := List.getElem?_eq_some_iff.mp h
  unfold readNameLoop
  rw [if_pos hpos, h]
  rfl

/-- The bytes that say how long a label is, and those that start a pointer. -/
theorem label_byte : ∀ n ≤ 63, 1 ≤ n →
    ¬ UInt8.ofNat n &&& 0xC0 = 0xC0 ∧ ¬ UInt8.ofNat n = 0 ∧ (UInt8.ofNat n).toNat = n := by
  decide +kernel

theorem pointer_byte : ∀ n < 64, UInt8.ofNat (0xC0 + n) &&& 0xC0 = 0xC0 ∧
    (UInt8.ofNat (0xC0 + n) &&& 0x3F).toNat = n := by
  decide +kernel

theorem readNameLoop_label {label : CString} (hmin : 1 ≤ label.length)
    (hmax : label.length ≤ 63) (hlen : buf[s.pos]? = some (UInt8.ofNat label.length))
    (hlabel : readBytes buf (s.pos + 1) label.length = some label) :
    readNameLoop buf (fuel + 1) s = readNameLoop buf fuel (s.label label) := by
  obtain ⟨hpos, _⟩ := List.getElem?_eq_some_iff.mp hlen
  obtain ⟨hbits, hzero, hnat⟩ := label_byte label.length hmax hmin
  have hfits : ¬ s.pos + 1 + label.length > buf.length := by
    intro hlong
    rw [readBytes, if_neg (by omega)] at hlabel
    cases hlabel
  rw [readNameLoop, if_pos hpos, hlen]
  simp only [Option.bind_eq_bind, Option.bind_some, if_neg hbits, if_neg hzero, hnat,
    if_neg hfits, hlabel]

theorem readNameLoop_pointer {target : Nat} (htarget : target < 2 ^ 14) (hguard : s.guard < 128)
    (hhigh : buf[s.pos]? = some (UInt8.ofNat (0xC0 + target / 256)))
    (hlow : buf[s.pos + 1]? = some (UInt8.ofNat (target % 256))) :
    readNameLoop buf (fuel + 1) s = readNameLoop buf fuel (s.jump target) := by
  obtain ⟨hpos, _⟩ := List.getElem?_eq_some_iff.mp hhigh
  obtain ⟨hnext, _⟩ := List.getElem?_eq_some_iff.mp hlow
  obtain ⟨hbits, hnat⟩ := pointer_byte (target / 256) (by omega)
  have hbyte : (UInt8.ofNat (target % 256)).toNat = target % 256 := by
    rw [UInt8.toNat_ofNat']
    omega
  have hjoin : ((target / 256) <<< 8) ||| (target % 256) = target := by
    rw [← Nat.shiftLeft_add_eq_or_of_lt (by omega), Nat.shiftLeft_eq]
    omega
  have hgo : ¬ (s.jump target).guard > 128 := by
    simp only [NameState.jump]
    omega
  have hinside : ¬ s.pos + 1 ≥ buf.length := by omega
  rw [readNameLoop, if_pos hpos, hhigh]
  simp only [Option.bind_eq_bind, Option.bind_some, if_pos hbits, if_neg hinside, hlow, hnat,
    hbyte, hjoin, if_neg hgo]

/-- From a state whose position is that of a name, the loop appends the labels
of the name, and stops with the position after it. -/
theorem readNameLoop_of_nameAt {pos pointers after : Nat} {labels : List CString}
    (h : NameAt buf pos labels pointers after) :
    ∀ (fuel : Nat) (s : NameState), s.pos = pos → s.guard + pointers ≤ 128 →
      s.measure buf < fuel →
      ∃ t, readNameLoop buf fuel s = some t ∧ t.out = labels.foldl appendLabel s.out ∧
        t.result = s.after after := by
  induction h with
  | root hzero =>
      rintro (_ | fuel) s rfl _ hfuel
      · exact absurd hfuel (Nat.not_lt_zero _)
      · exact ⟨_, readNameLoop_root hzero, rfl, rfl⟩
  | @label _ _ _ label _ hmin hmax hlen hlabel _ ih =>
      rintro (_ | fuel) s rfl hguard hfuel
      · exact absurd hfuel (Nat.not_lt_zero _)
      · obtain ⟨hpos, _⟩ := List.getElem?_eq_some_iff.mp hlen
        have hless := s.measure_label buf label hpos
        rw [readNameLoop_label hmin hmax hlen hlabel]
        exact ih fuel (s.label label) rfl hguard (by omega)
  | @pointer _ target _ _ _ htarget hhigh hlow _ ih =>
      rintro (_ | fuel) s rfl hguard hfuel
      · exact absurd hfuel (Nat.not_lt_zero _)
      · have hless := s.measure_jump buf target (by omega)
        obtain ⟨t, ht, hout, hresult⟩ := ih fuel (s.jump target) rfl
          (by simp only [NameState.jump]; omega) (by omega)
        rw [readNameLoop_pointer htarget (by omega) hhigh hlow]
        exact ⟨t, ht, hout, hresult⟩

/-- Where a name is encoded, through 128 pointers at most, `read_name` returns
its labels joined by dots, and the position just past its first zero byte or
pointer. -/
theorem readName_of_nameAt {pos pointers after : Nat} {labels : List CString}
    (h : NameAt buf pos labels pointers after) (hpointers : pointers ≤ 128) :
    readName buf pos = some (joinLabels labels, after) := by
  obtain ⟨t, ht, hout, hresult⟩ := readNameLoop_of_nameAt h (nameFuel buf) (.start pos)
    rfl (by simpa [NameState.start] using hpointers) (measure_lt_nameFuel buf pos)
  rw [readName, ht, joinLabels_eq h.ne_nil, Option.map_some, hout, hresult]
  rfl

/-- The name `a.b`, whose second label is behind a pointer. -/
theorem readName_of_nameAt_pointer :
    readName [1, 98, 0, 1, 97, 0xC0, 0, 7] 3 = some (lit "a.b", 7) := by
  have hb : NameAt [1, 98, 0, 1, 97, 0xC0, 0, 7] 0 [lit "b"] 0 3 :=
    .label (by decide) (by decide) (by decide) (by decide) (.root (by decide))
  have hab : NameAt [1, 98, 0, 1, 97, 0xC0, 0, 7] 3 [lit "a", lit "b"] 1 7 :=
    .label (by decide) (by decide) (by decide) (by decide)
      (.pointer (by decide) (by decide) (by decide) hb)
  exact readName_of_nameAt hab (by decide)

end EsphomeApi.Discovery
