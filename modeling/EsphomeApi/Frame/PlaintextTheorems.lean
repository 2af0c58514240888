/-
EsphomeApi.Frame.PlaintextTheorems — the plaintext codec as a stream decoder,
what follows for a stream that arrives in pieces, and which frames come back.

`parseFrame` reads one frame off the front of a byte string; `next_eq` says
that `next` is that reader on the bytes not consumed yet, with the lazy
compaction as bookkeeping. `frameDecoder` packages the reader with the two
laws of `Library.StreamDecoder`: the length limit and both varint limits are
verdicts on a prefix, so they stand when more bytes arrive.

`Session` is the receiving loop of a connection: feed a chunk, then call
`next` until it stops returning `Ok`. `reassembly_chunking` is the first
result: two ways of cutting one byte string give the same frames and the same
ending. `Encodable` is the second: `encode` and `next` have different limits,
and a frame comes back exactly if it is within those of `next`.
-/
import EsphomeApi.Frame.Plaintext
import EsphomeApi.Library.StreamDecoder

namespace EsphomeApi.PlaintextFrameHelper

open Library

/-! ## The reader of one frame -/

/-- The part of `parseFrame` after the two varints. -/
def parseBody (payloadLen msgType : Nat) (rest : Bytes) : Verdict Unit UInt8 Frame ApiException :=
  if payloadLen > maxFramePayload then .fail lengthExceedsMaximum
  else if rest.length < payloadLen then .needMore
  else .item ⟨UInt32.ofNat msgType, rest.take payloadLen⟩ () (rest.drop payloadLen)

/-- The part of `parseFrame` after the length varint. -/
def parseType (payloadLen : Nat) (rest : Bytes) : Verdict Unit UInt8 Frame ApiException :=
  match Leb128.decode varintBudget rest with
  | .incomplete => .needMore
  | .overflow => .fail typeTooLong
  | .done msgType rest' => parseBody payloadLen msgType rest'

/-- One frame off the front of a byte string. -/
def parseFrame : Bytes → Verdict Unit UInt8 Frame ApiException
  | [] => .needMore
  | b :: rest =>
      if b ≠ indicator then
        if b = 0x01 then .fail encryptionMismatch else .fail (badIndicator b)
      else
        match Leb128.decode varintBudget rest with
        | .incomplete => .needMore
        | .overflow => .fail lengthTooLong
        | .done payloadLen rest' => parseType payloadLen rest'

/-! ## `next` is that reader -/

theorem compact_buffer (h : PlaintextFrameHelper) : h.compact.buffer = h.unconsumed := by
  unfold compact unconsumed
  split
  · next h0 => rw [h0, List.drop_zero]
  · split
    · next hge => rw [List.drop_of_length_le hge]
    · rfl

theorem compact_consumed (h : PlaintextFrameHelper) : h.compact.consumed = 0 := by
  unfold compact
  split
  · assumption
  · split <;> rfl

/-- A 4-byte varint always fits 32 bits, so only the budget is checked. -/
theorem decodeVarint_budget (data : Bytes) :
    decodeVarint data varintBudget = match Leb128.decode varintBudget data with
      | .incomplete => .incomplete
      | .overflow => .overflow
      | .done v rest => .ok (UInt32.ofNat v) (data.length - rest.length) := by
  rw [decodeVarint_eq data (by decide)]
  cases hd : Leb128.decode varintBudget data with
  | incomplete => rfl
  | overflow => rfl
  | done v rest =>
      have hv := Leb128.decode_done_lt hd
      have hle : ¬ v > 0xFFFFFFFF := by
        simp only [varintBudget] at hv
        omega
      simp [VarintStatus.ofResult, hle]

/-- What `next` returns for a verdict of the reader, and the helper after it. -/
def ofVerdict (x : Bytes) : Verdict Unit UInt8 Frame ApiException →
    Except ApiException (Option Frame) × PlaintextFrameHelper
  | .needMore => (.ok none, { buffer := x, consumed := 0 })
  | .fail e => (.error e, { buffer := x, consumed := 0 })
  | .item f _ rest => (.ok (some f), { buffer := x, consumed := x.length - rest.length })

theorem length_sub_suffix (pre rest : Bytes) : (pre ++ rest).length - rest.length = pre.length := by
  rw [List.length_append, Nat.add_sub_cancel]

/-- Past the indicator and the two varints. -/
theorem drop_header (b : UInt8) (pre₁ pre₂ rest : Bytes) :
    (b :: (pre₁ ++ (pre₂ ++ rest))).drop (1 + pre₁.length + pre₂.length) = rest := by
  have hlen : 1 + pre₁.length + pre₂.length = (b :: (pre₁ ++ pre₂)).length := by
    simp only [List.length_cons, List.length_append]
    omega
  rw [hlen, show b :: (pre₁ ++ (pre₂ ++ rest)) = (b :: (pre₁ ++ pre₂)) ++ rest by simp,
    List.drop_left]

theorem compact_eq (h : PlaintextFrameHelper) :
    h.compact = { buffer := h.unconsumed, consumed := 0 } := by
  rw [← compact_buffer, ← compact_consumed h]

/-- `next` reads one frame off the bytes not consumed yet. -/
theorem next_eq (h : PlaintextFrameHelper) :
    h.next = ofVerdict h.unconsumed (parseFrame h.unconsumed) := by
  unfold next
  rw [compact_eq]
  generalize h.unconsumed = x
  cases x with
  | nil => rfl
  | cons b rest =>
      simp only [parseFrame]
      split
      · split <;> rfl
      · rw [decodeVarint_budget]
        cases hlen : Leb128.decode varintBudget rest with
        | incomplete => rfl
        | overflow => rfl
        | done payloadLen rest₁ =>
            obtain ⟨pre₁, rfl, -⟩ := Leb128.decode_done_split hlen
            have hpl := Leb128.decode_done_lt hlen
            have hword : (UInt32.ofNat payloadLen).toNat = payloadLen := by
              rw [UInt32.toNat_ofNat']
              simp only [varintBudget] at hpl
              omega
            simp only [length_sub_suffix, List.drop_left, decodeVarint_budget rest₁, parseType]
            cases htype : Leb128.decode varintBudget rest₁ with
            | incomplete => rfl
            | overflow => rfl
            | done msgType rest₂ =>
                obtain ⟨pre₂, rfl, -⟩ := Leb128.decode_done_split htype
                have hleft : (b :: (pre₁ ++ (pre₂ ++ rest₂))).length
                    - (1 + pre₁.length + pre₂.length) = rest₂.length := by
                  simp only [List.length_cons, List.length_append]
                  omega
                simp only [hword, length_sub_suffix, hleft, drop_header, parseBody]
                split
                · rfl
                · split
                  · rfl
                  · rw [ofVerdict, List.length_drop]
                    congr 2
                    simp only [List.length_cons, List.length_append]
                    omega

/-! ## The laws of a stream decoder -/

theorem parseBody_item {payloadLen msgType : Nat} {x rest : Bytes} {f : Frame} {u : Unit}
    (h : parseBody payloadLen msgType x = .item f u rest) (y : Bytes) :
    rest <:+ x ∧ parseBody payloadLen msgType (x ++ y) = .item f u (rest ++ y) := by
  unfold parseBody at h ⊢
  split at h
  · cases h
  · next hmax =>
    split at h
    · cases h
    · next hlen =>
      simp only [Verdict.item.injEq] at h
      obtain ⟨rfl, -, rfl⟩ := h
      refine ⟨List.drop_suffix _ _, ?_⟩
      have hle : payloadLen ≤ x.length := by omega
      rw [if_neg hmax, if_neg (by simp only [List.length_append]; omega),
        List.take_append_of_le_length hle, List.drop_append_of_le_length hle]

theorem parseBody_fail {payloadLen msgType : Nat} {x : Bytes} {e : ApiException}
    (h : parseBody payloadLen msgType x = .fail e) (y : Bytes) :
    parseBody payloadLen msgType (x ++ y) = .fail e := by
  unfold parseBody at h ⊢
  split at h
  · next hmax => rw [if_pos hmax]; exact h
  · split at h <;> cases h

theorem parseType_item {payloadLen : Nat} {x rest : Bytes} {f : Frame} {u : Unit}
    (h : parseType payloadLen x = .item f u rest) (y : Bytes) :
    rest <:+ x ∧ parseType payloadLen (x ++ y) = .item f u (rest ++ y) := by
  unfold parseType at h ⊢
  split at h
  · cases h
  · cases h
  · next msgType rest' hd =>
    obtain ⟨pre, rfl, -⟩ := Leb128.decode_done_split hd
    obtain ⟨hsuf, happ⟩ := parseBody_item h y
    rw [Leb128.decode_append_done y hd]
    exact ⟨hsuf.trans (List.suffix_append _ _), happ⟩

theorem parseType_fail {payloadLen : Nat} {x : Bytes} {e : ApiException}
    (h : parseType payloadLen x = .fail e) (y : Bytes) :
    parseType payloadLen (x ++ y) = .fail e := by
  unfold parseType at h ⊢
  split at h
  · cases h
  · next hd => rw [Leb128.decode_append_overflow y hd]; exact h
  · next msgType rest' hd =>
    rw [Leb128.decode_append_done y hd]
    exact parseBody_fail h y

theorem parseFrame_item {x rest : Bytes} {f : Frame} {u : Unit}
    (h : parseFrame x = .item f u rest) (y : Bytes) :
    rest <:+ x.tail ∧ parseFrame (x ++ y) = .item f u (rest ++ y) := by
  cases x with
  | nil => cases h
  | cons b tail =>
      rw [List.cons_append]
      simp only [parseFrame] at h ⊢
      split at h
      · split at h <;> cases h
      · next hb =>
        rw [if_neg hb]
        split at h
        · cases h
        · cases h
        · next payloadLen rest' hd =>
          obtain ⟨pre, rfl, -⟩ := Leb128.decode_done_split hd
          obtain ⟨hsuf, happ⟩ := parseType_item h y
          rw [Leb128.decode_append_done y hd]
          exact ⟨hsuf.trans (List.suffix_append _ _), happ⟩

theorem parseFrame_item_length {x rest : Bytes} {f : Frame} {u : Unit}
    (h : parseFrame x = .item f u rest) : rest.length < x.length := by
  have hle := (parseFrame_item h []).1.length_le
  cases x with
  | nil => cases h
  | cons b tail =>
      rw [List.tail_cons] at hle
      rw [List.length_cons]
      omega

theorem parseFrame_fail {x : Bytes} {e : ApiException}
    (h : parseFrame x = .fail e) (y : Bytes) : parseFrame (x ++ y) = .fail e := by
  cases x with
  | nil => cases h
  | cons b tail =>
      rw [List.cons_append]
      simp only [parseFrame] at h ⊢
      split at h
      · next hb => rw [if_pos hb]; exact h
      · next hb =>
        rw [if_neg hb]
        split at h
        · cases h
        · next hd => rw [Leb128.decode_append_overflow y hd]; exact h
        · next payloadLen rest' hd =>
          rw [Leb128.decode_append_done y hd]
          exact parseType_fail h y

/-- The plaintext framing as a stream decoder. -/
def frameDecoder : StreamDecoder Unit UInt8 Frame ApiException where
  step := fun _ x => parseFrame x
  shrinks := parseFrame_item_length
  item_append := fun y h => (parseFrame_item h y).2
  fail_append := fun y h => parseFrame_fail h y

/-! ## What `encode` writes -/

/-- A frame that the framing has room for: four bytes for each varint, and the
limit on payloads. -/
structure Encodable (frame : Frame) : Prop where
  type : frame.type.toNat < 2 ^ 28
  payload : frame.payload.length ≤ maxFramePayload

theorem encode_eq (type : UInt32) (payload : Bytes) (hpayload : payload.length ≤ maxFramePayload) :
    encode type payload [] =
      indicator :: (Leb128.encode payload.length ++ (Leb128.encode type.toNat ++ payload)) := by
  have hlen : (UInt32.ofNat payload.length).toNat = payload.length := by
    rw [UInt32.toNat_ofNat', Nat.mod_eq_of_lt]
    exact Nat.lt_of_le_of_lt hpayload (by decide)
  rw [encode, appendVarint_eq, appendVarint_eq, hlen]
  simp

/-- The reader gives back the frame that was encoded, and what follows it. -/
theorem parseFrame_encode {frame : Frame} (h : Encodable frame) (rest : Bytes) :
    parseFrame (encode frame.type frame.payload [] ++ rest) = .item frame () rest := by
  have hpayload : frame.payload.length < 128 ^ (3 + 1) :=
    Nat.lt_of_le_of_lt h.payload (by decide)
  have htype : frame.type.toNat < 128 ^ (3 + 1) := Nat.lt_of_lt_of_le h.type (by decide)
  have hmax : ¬ frame.payload.length > maxFramePayload := Nat.not_lt.mpr h.payload
  rw [encode_eq _ _ h.payload, List.cons_append, parseFrame, if_neg (not_not_intro rfl),
    List.append_assoc, varintBudget, Leb128.decode_encode 3 _ _ hpayload]
  simp only [parseType, varintBudget]
  rw [List.append_assoc, Leb128.decode_encode 3 _ _ htype]
  simp only [parseBody]
  rw [if_neg hmax, if_neg (by rw [List.length_append]; omega), List.take_left, List.drop_left,
    UInt32.ofNat_toNat]

/-! ## The receiving loop -/

/-- A helper being fed, with the frames it has returned and the exception
that ended the stream, if one was thrown. -/
structure Session where
  helper : PlaintextFrameHelper := {}
  frames : List Frame := []
  thrown : Option ApiException := none

/-- After a frame, exactly the bytes behind it are left to consume. -/
theorem unconsumed_ofVerdict_item {x rest : Bytes} {f : Frame} {u : Unit}
    (h : parseFrame x = .item f u rest) :
    (ofVerdict x (.item f u rest)).2.unconsumed = rest := by
  have hsuf : rest <:+ x := (parseFrame_item h []).1.trans (List.tail_suffix x)
  exact (List.suffix_iff_eq_drop.mp hsuf).symm

/-- A frame returned by `next` leaves fewer bytes to consume. -/
theorem unconsumed_next_lt {h h' : PlaintextFrameHelper} {f : Frame}
    (hn : h.next = (.ok (some f), h')) : h'.unconsumed.length < h.unconsumed.length := by
  rw [next_eq] at hn
  cases hp : parseFrame h.unconsumed with
  | needMore => simp [hp, ofVerdict] at hn
  | fail e => simp [hp, ofVerdict] at hn
  | item g u rest =>
      have hlt := parseFrame_item_length hp
      rw [hp] at hn
      rw [← unconsumed_ofVerdict_item hp, hn] at hlt
      exact hlt

/-- Call `next` until it stops returning `Ok`. -/
def Session.drain (s : Session) : Session :=
  match _hn : s.helper.next with
  | (.ok (some f), h) => drain { s with helper := h, frames := s.frames ++ [f] }
  | (.ok none, h) => { s with helper := h }
  | (.error e, h) => { s with helper := h, thrown := some e }
termination_by s.helper.unconsumed.length
decreasing_by exact unconsumed_next_lt _hn

/-- One chunk arrives. Nothing is fed after an exception. -/
def Session.receive (s : Session) (chunk : Bytes) : Session :=
  match s.thrown with
  | some _ => s
  | none => { s with helper := s.helper.feed chunk }.drain

/-- What an observer sees of a session: the frames, and either the bytes
still unconsumed or the exception. -/
def Session.outcome (s : Session) : List Frame × Ending Unit UInt8 ApiException :=
  (s.frames, match s.thrown with
    | some e => .rejected e
    | none => .waiting () s.helper.unconsumed)

theorem Session.drain_ok {s : Session} {f : Frame} {h : PlaintextFrameHelper}
    (hn : s.helper.next = (.ok (some f), h)) :
    s.drain = { s with helper := h, frames := s.frames ++ [f] : Session }.drain := by
  rw [drain]
  split <;> simp_all

theorem Session.drain_none {s : Session} {h : PlaintextFrameHelper}
    (hn : s.helper.next = (.ok none, h)) : s.drain = { s with helper := h } := by
  rw [drain]
  split <;> simp_all

theorem Session.drain_error {s : Session} {e : ApiException} {h : PlaintextFrameHelper}
    (hn : s.helper.next = (.error e, h)) : s.drain = { s with helper := h, thrown := some e } := by
  rw [drain]
  split <;> simp_all

/-- Between two chunks: unless an exception ended the session, the buffer is
compacted and `next` asks for more. -/
def Session.Settled (s : Session) : Prop :=
  s.thrown = none → s.helper.consumed = 0 ∧ s.helper.next = (.ok none, s.helper)

/-- The loop over `next` is the decoder draining the unconsumed bytes. -/
theorem Session.drain_spec (s : Session) (ht : s.thrown = none) :
    s.drain.Settled ∧
    s.drain.outcome = (s.frames ++ (frameDecoder.drain () s.helper.unconsumed).1,
      (frameDecoder.drain () s.helper.unconsumed).2) := by
  induction hlen : s.helper.unconsumed.length using Nat.strongRecOn generalizing s with
  | ind n ih =>
      subst hlen
      have hnext := next_eq s.helper
      cases hp : parseFrame s.helper.unconsumed with
      | needMore =>
          rw [hp, ofVerdict] at hnext
          rw [frameDecoder.drain_needMore hp, drain_none hnext]
          refine ⟨fun _ => ⟨rfl, ?_⟩, by simp [outcome, ht, unconsumed]⟩
          have hagain := next_eq { buffer := s.helper.unconsumed, consumed := 0 }
          rwa [show unconsumed { buffer := s.helper.unconsumed, consumed := 0 }
            = s.helper.unconsumed from List.drop_zero, hp] at hagain
      | fail e =>
          rw [hp, ofVerdict] at hnext
          rw [frameDecoder.drain_fail hp, drain_error hnext]
          exact ⟨fun h => by simp at h, by simp [outcome]⟩
      | item f u rest =>
          have hrest := unconsumed_ofVerdict_item hp
          rw [hp, ofVerdict] at hnext
          rw [frameDecoder.drain_item hp, drain_ok hnext]
          obtain ⟨hset, hrec⟩ := ih _ (unconsumed_next_lt hnext)
            { helper := _, frames := s.frames ++ [f], thrown := s.thrown } ht rfl
          rw [ofVerdict] at hrest
          refine ⟨hset, ?_⟩
          rw [hrec, hrest]
          simp

/-- The arrival of a chunk is an arrival at the decoder. -/
theorem Session.receive_spec (s : Session) (chunk : Bytes) (hs : s.Settled) :
    (s.receive chunk).Settled ∧ (s.receive chunk).outcome = frameDecoder.feed s.outcome chunk := by
  cases ht : s.thrown with
  | some e =>
      have hr : s.receive chunk = s := by
        unfold receive
        rw [ht]
      rw [hr]
      refine ⟨hs, ?_⟩
      simp [outcome, ht, StreamDecoder.feed]
  | none =>
      have hr : s.receive chunk = { s with helper := s.helper.feed chunk : Session }.drain := by
        unfold receive
        rw [ht]
      have hfed : (s.helper.feed chunk).unconsumed = s.helper.unconsumed ++ chunk := by
        simp [unconsumed, feed, (hs ht).1]
      obtain ⟨hset, hout⟩ := drain_spec { s with helper := s.helper.feed chunk } ht
      rw [hr]
      refine ⟨hset, ?_⟩
      rw [hout, hfed]
      simp [outcome, ht, StreamDecoder.feed]

/-- All chunks of a stream: the session ends settled, and what it shows is the
whole stream drained in one piece. -/
theorem Session.receiveAll_spec (chunks : List Bytes) :
    (chunks.foldl Session.receive {}).Settled ∧
    (chunks.foldl Session.receive {}).outcome = frameDecoder.drain () chunks.flatten := by
  have hrun : ∀ (cs : List Bytes) (s : Session), s.Settled →
      (cs.foldl receive s).Settled ∧
      (cs.foldl receive s).outcome = cs.foldl frameDecoder.feed s.outcome := by
    intro cs
    induction cs with
    | nil => intro s hs; exact ⟨hs, rfl⟩
    | cons c cs ih =>
        intro s hs
        obtain ⟨hset, hout⟩ := s.receive_spec c hs
        rw [List.foldl_cons, List.foldl_cons, ← hout]
        exact ih _ hset
  obtain ⟨hset, hout⟩ := hrun chunks {} (fun _ => ⟨rfl, rfl⟩)
  refine ⟨hset, hout.trans ?_⟩
  have hempty : frameDecoder.step () [] = .needMore := rfl
  exact frameDecoder.foldl_feed chunks [] () [] hempty

/-- Two ways of cutting a byte string into chunks give the same frames in the
same order and the same ending: `next` asking for more with the same bytes
unconsumed, or the same exception after the same frames. -/
theorem reassembly_chunking (chunks₁ chunks₂ : List Bytes)
    (hflat : chunks₁.flatten = chunks₂.flatten) :
    (chunks₁.foldl Session.receive {}).Settled ∧ (chunks₂.foldl Session.receive {}).Settled ∧
    (chunks₁.foldl Session.receive {}).outcome = (chunks₂.foldl Session.receive {}).outcome := by
  obtain ⟨hset₁, hout₁⟩ := Session.receiveAll_spec chunks₁
  obtain ⟨hset₂, hout₂⟩ := Session.receiveAll_spec chunks₂
  exact ⟨hset₁, hset₂, by rw [hout₁, hout₂, hflat]⟩

/-- A frame of type 7 and the beginning of another, cut inside the header and
inside the payload. -/
theorem reassembly_chunking_example :
    (([[0x00], [0x02, 0x07, 0xAA], [0xBB, 0x00]] : List Bytes).foldl Session.receive {}).outcome
      = (([[0x00, 0x02, 0x07, 0xAA, 0xBB, 0x00]] : List Bytes).foldl Session.receive {}).outcome :=
  (reassembly_chunking [[0x00], [0x02, 0x07, 0xAA], [0xBB, 0x00]]
    [[0x00, 0x02, 0x07, 0xAA, 0xBB, 0x00]] rfl).2.2

/-! ## Which frames come back -/

theorem parseBody_encodable {payloadLen msgType : Nat} {x rest : Bytes} {f : Frame} {u : Unit}
    (htype : msgType < 2 ^ 28) (h : parseBody payloadLen msgType x = .item f u rest) :
    Encodable f := by
  unfold parseBody at h
  split at h
  · cases h
  · next hmax =>
    split at h
    · cases h
    · simp only [Verdict.item.injEq] at h
      obtain ⟨rfl, -, -⟩ := h
      refine ⟨?_, Nat.le_trans (List.length_take_le _ _) (Nat.not_lt.mp hmax)⟩
      show (UInt32.ofNat msgType).toNat < 2 ^ 28
      rw [UInt32.toNat_ofNat']
      omega

/-- The reader returns no frame that the framing has no room for: a type read
from four bytes is below 2^28, and a longer payload is refused. -/
theorem parseFrame_encodable {x rest : Bytes} {f : Frame} {u : Unit}
    (h : parseFrame x = .item f u rest) : Encodable f := by
  cases x with
  | nil => cases h
  | cons b tail =>
      simp only [parseFrame] at h
      split at h
      · split at h <;> cases h
      · split at h
        · cases h
        · cases h
        · next payloadLen rest₁ _ =>
          unfold parseType at h
          split at h
          · cases h
          · cases h
          · next msgType rest₂ hd =>
            have htype : msgType < 128 ^ varintBudget := Leb128.decode_done_lt hd
            exact parseBody_encodable (Nat.lt_of_lt_of_le htype (by decide)) h

/-- A frame that `next` returns has room in the framing. -/
theorem next_encodable {h h' : PlaintextFrameHelper} {f : Frame}
    (hn : h.next = (.ok (some f), h')) : Encodable f := by
  rw [next_eq] at hn
  cases hp : parseFrame h.unconsumed with
  | needMore => simp [hp, ofVerdict] at hn
  | fail e => simp [hp, ofVerdict] at hn
  | item g u rest =>
      simp only [hp, ofVerdict, Prod.mk.injEq, Except.ok.injEq, Option.some.injEq] at hn
      obtain ⟨rfl, -⟩ := hn
      exact parseFrame_encodable hp

/-- `encode` appends the bytes it writes to an empty buffer. -/
theorem encode_append (type : UInt32) (payload out : Bytes) :
    encode type payload out = out ++ encode type payload [] := by
  simp only [encode, appendVarint_eq, List.append_assoc, List.nil_append]

/-- The frames written into one buffer, one after another. -/
def encodeFrames (frames : List Frame) (out : Bytes) : Bytes :=
  frames.foldl (fun out frame => encode frame.type frame.payload out) out

theorem encodeFrames_cons (frame : Frame) (frames : List Frame) (out : Bytes) :
    encodeFrames (frame :: frames) out = encodeFrames frames (encode frame.type frame.payload out) :=
  rfl

theorem encodeFrames_append (frames : List Frame) (out : Bytes) :
    encodeFrames frames out = out ++ encodeFrames frames [] := by
  induction frames generalizing out with
  | nil => simp [encodeFrames]
  | cons frame frames ih =>
      rw [encodeFrames_cons, encodeFrames_cons, ih, encode_append, List.append_assoc,
        ← ih (encode frame.type frame.payload [])]

/-- The decoder gives back the frames written, and uses up their bytes. -/
theorem drain_encodeFrames (frames : List Frame) (hframes : ∀ frame ∈ frames, Encodable frame) :
    frameDecoder.drain () (encodeFrames frames []) = (frames, .waiting () []) := by
  induction frames with
  | nil => exact frameDecoder.drain_needMore rfl
  | cons frame frames ih =>
      have hfirst : frameDecoder.step () (encodeFrames (frame :: frames) []) =
          .item frame () (encodeFrames frames []) := by
        rw [encodeFrames_cons, encodeFrames_append]
        exact parseFrame_encode (hframes frame (List.mem_cons_self ..)) _
      rw [frameDecoder.drain_item hfirst,
        ih fun other hother => hframes other (List.mem_cons_of_mem _ hother)]

/-- A settled session whose bytes are used up has a helper like a fresh one. -/
theorem Session.Settled.fresh {s : Session} (hs : s.Settled) {frames : List Frame}
    (hout : s.outcome = (frames, .waiting () [])) :
    s.frames = frames ∧ s.thrown = none ∧ s.helper = {} := by
  obtain ⟨hframes, hending⟩ := Prod.mk.inj hout
  cases ht : s.thrown with
  | some e => simp [ht] at hending
  | none =>
      have hbuffer : s.helper.buffer.drop s.helper.consumed = [] := by
        simpa [ht, unconsumed] using hending
      have hconsumed := (hs ht).1
      rw [hconsumed, List.drop_zero] at hbuffer
      refine ⟨hframes, rfl, ?_⟩
      show s.helper = { buffer := [], consumed := 0 }
      rw [← hbuffer, ← hconsumed]

/-- A frame comes back from a fresh helper, leaving the helper as a fresh one
for the next call, exactly when its type fits four varint bytes and its
payload the limit. Frames of that kind written one after another come back as
the same list, whatever their number. -/
theorem encode_next_iff (type : UInt32) (payload : Bytes) :
    ((∃ h, (feed (encode type payload []) {}).next = (.ok (some ⟨type, payload⟩), h) ∧
        h.next = (.ok none, {})) ↔
      type.toNat < 2 ^ 28 ∧ payload.length ≤ 16 * 1024 * 1024) ∧
    ∀ frames : List Frame,
      (∀ frame ∈ frames, frame.type.toNat < 2 ^ 28 ∧ frame.payload.length ≤ 16 * 1024 * 1024) →
      (Session.receive {} (encodeFrames frames [])).frames = frames ∧
      (Session.receive {} (encodeFrames frames [])).thrown = none ∧
      (Session.receive {} (encodeFrames frames [])).helper = {} := by
  refine ⟨⟨?_, ?_⟩, ?_⟩
  · rintro ⟨h, hnext, -⟩
    obtain ⟨htype, hpayload⟩ := next_encodable hnext
    exact ⟨htype, hpayload⟩
  · rintro ⟨htype, hpayload⟩
    have hencodable : Encodable ⟨type, payload⟩ := ⟨htype, hpayload⟩
    have hitem := parseFrame_encode hencodable []
    rw [List.append_nil] at hitem
    have hnext := next_eq (feed (encode type payload []) {})
    have hfed : (feed (encode type payload []) {}).unconsumed = encode type payload [] := rfl
    rw [hfed, hitem] at hnext
    refine ⟨(ofVerdict (encode type payload []) (.item ⟨type, payload⟩ () [])).2, hnext, ?_⟩
    have hempty : (ofVerdict (encode type payload []) (.item ⟨type, payload⟩ () [])).2.unconsumed
      = [] := unconsumed_ofVerdict_item hitem
    rw [next_eq, hempty]
    rfl
  · intro frames hframes
    obtain ⟨hsettled, hout⟩ := Session.receiveAll_spec [encodeFrames frames []]
    rw [List.flatten_singleton, drain_encodeFrames frames fun frame hframe =>
      ⟨(hframes frame hframe).1, (hframes frame hframe).2⟩] at hout
    exact hsettled.fresh hout

/-- Two frames, one of them empty, come back from one buffer. -/
theorem encode_next_iff_two :
    (Session.receive {} (encodeFrames [⟨7, [0xAA, 0xBB]⟩, ⟨8, []⟩] [])).frames =
      [⟨7, [0xAA, 0xBB]⟩, ⟨8, []⟩] :=
  ((encode_next_iff 7 [0xAA, 0xBB]).2 [⟨7, [0xAA, 0xBB]⟩, ⟨8, []⟩] (by decide)).1

end EsphomeApi.PlaintextFrameHelper
