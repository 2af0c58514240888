/-
EsphomeApi.Frame.NoiseReassembly — feeding a Noise helper a byte stream in
chunks.

A raw frame is read off the front of the buffer (`parseRaw`), and what the
helper then does with it (`dispatch`) neither reads nor writes the buffer. So
the helper is a decoder of raw frames whose items are handled with a state,
the helper itself, and `StreamDecoder.foldl_feed` applies to it up to the
first failure. `noise_reassembly_chunking` is the result: the cut does not
matter.
-/
import EsphomeApi.Frame.Helpers
import EsphomeApi.Library.Loop

namespace EsphomeApi.NoiseFrameHelper

open Library Noise

/-! ## Raw frames -/

/-- One raw frame off the front of a byte string. -/
def parseRaw : Bytes → Verdict Unit UInt8 Bytes ApiException
  | p0 :: p1 :: p2 :: rest =>
      if p0 ≠ indicator then
        if p0 = 0x00 then .fail encryptionMismatch else .fail badIndicator
      else
        let len := p1.toNat * 256 + p2.toNat
        if len > maxFramePayload then .fail lengthExceedsMaximum
        else if rest.length < len then .needMore
        else .item (rest.take len) () (rest.drop len)
  | _ => .needMore

/-- A raw frame as it stands in the stream. -/
theorem wrap_eq (raw : Bytes) :
    wrap raw = indicator :: UInt8.ofNat (raw.length / 256) :: UInt8.ofNat raw.length :: raw := by
  simp [wrap, appendU16]

theorem parseRaw_wrap {raw : Bytes} (hlen : raw.length < 2 ^ 16) (rest : Bytes) :
    parseRaw (wrap raw ++ rest) = .item raw () rest := by
  have hhigh : (UInt8.ofNat (raw.length / 256)).toNat = raw.length / 256 := by
    rw [UInt8.toNat_ofNat']
    omega
  have hlow : (UInt8.ofNat raw.length).toNat = raw.length % 256 := UInt8.toNat_ofNat'
  have hvalue : raw.length / 256 * 256 + raw.length % 256 = raw.length := by omega
  have hmax : ¬ raw.length > maxFramePayload := by
    simp only [maxFramePayload]
    omega
  simp only [wrap_eq, List.cons_append, parseRaw, hhigh, hlow, hvalue]
  rw [if_neg (by simp), if_neg hmax, if_neg (by simp)]
  simp

/-- What is read as a raw frame is the front of the stream. -/
theorem parseRaw_item {x raw rest : Bytes} {u : Unit} (h : parseRaw x = .item raw u rest) :
    x = wrap raw ++ rest ∧ raw.length < 2 ^ 16 := by
  unfold parseRaw at h
  split at h
  · rename_i p0 p1 p2 body
    split at h
    · split at h <;> cases h
    · rename_i hindicator
      simp only at h
      split at h
      · cases h
      · split at h
        · cases h
        · rename_i hshort
          cases h
          have h1 := p1.toNat_lt
          have h2 := p2.toNat_lt
          have hlen : (body.take (p1.toNat * 256 + p2.toNat)).length =
              p1.toNat * 256 + p2.toNat := by
            rw [List.length_take]
            omega
          have hhigh : UInt8.ofNat ((p1.toNat * 256 + p2.toNat) / 256) = p1 := by
            apply UInt8.toNat.inj
            rw [UInt8.toNat_ofNat']
            omega
          have hlow : UInt8.ofNat (p1.toNat * 256 + p2.toNat) = p2 := by
            apply UInt8.toNat.inj
            rw [UInt8.toNat_ofNat']
            omega
          refine ⟨?_, by omega⟩
          rw [wrap_eq, hlen, hhigh, hlow, ← not_not.mp hindicator]
          simp
  · cases h

theorem parseRaw_fail {x : Bytes} {e : ApiException} (h : parseRaw x = .fail e) (y : Bytes) :
    parseRaw (x ++ y) = .fail e := by
  unfold parseRaw at h
  split at h
  · rename_i p0 p1 p2 body
    simp only [List.cons_append, parseRaw]
    split at h
    · rename_i hindicator
      rw [if_pos hindicator]
      exact h
    · rename_i hindicator
      rw [if_neg hindicator]
      simp only at h
      split at h
      · rename_i hmax
        rw [if_pos hmax]
        exact h
      · split at h <;> cases h
  · cases h

/-- The outer framing as a stream decoder. -/
def rawDecoder : StreamDecoder Unit UInt8 Bytes ApiException where
  step _ x := parseRaw x
  shrinks := by
    intro _ x raw _ rest h
    rw [(parseRaw_item h).1, wrap_eq]
    simp only [List.cons_append, List.length_cons, List.length_append]
    omega
  item_append := by
    intro _ x raw _ rest y h
    obtain ⟨rfl, hlen⟩ := parseRaw_item h
    rw [List.append_assoc]
    exact parseRaw_wrap hlen _
  fail_append := fun y h => parseRaw_fail h y

/-! ## `next` reads raw frames and hands them on -/

/-- The helper with another receive buffer. -/
def rebuffer (buffer : Bytes) (consumed : Nat) (s : NoiseFrameHelper) : NoiseFrameHelper :=
  { s with buffer := buffer, consumed := consumed }

theorem unconsumed_rebuffer (buffer : Bytes) (consumed : Nat) (s : NoiseFrameHelper) :
    (s.rebuffer buffer consumed).unconsumed = buffer.drop consumed := rfl

theorem compact_eq (s : NoiseFrameHelper) : s.compact = s.rebuffer s.unconsumed 0 := by
  obtain ⟨hbuffer, hconsumed⟩ := compact_buffer s
  unfold rebuffer
  rw [← hbuffer, ← hconsumed]
  unfold compact
  split
  · rfl
  · split <;> rfl

theorem nextRaw_eq (s : NoiseFrameHelper) :
    s.nextRaw = match parseRaw s.unconsumed with
      | .needMore => (.ok none, s.rebuffer s.unconsumed 0)
      | .fail e => (.error e, s.rebuffer s.unconsumed 0)
      | .item raw _ _ => (.ok (some raw), s.rebuffer s.unconsumed (3 + raw.length)) := by
  unfold nextRaw
  rw [compact_eq]
  simp only [rebuffer]
  rcases s.unconsumed with _ | ⟨p0, _ | ⟨p1, _ | ⟨p2, rest⟩⟩⟩
  · rfl
  · rfl
  · rfl
  · simp only [parseRaw]
    by_cases hindicator : p0 ≠ indicator
    · rw [if_pos hindicator, if_pos hindicator]
      by_cases hplain : p0 = 0x00 <;> simp [hplain]
    · by_cases hmax : p1.toNat * 256 + p2.toNat > maxFramePayload
      · simp [hindicator, hmax]
      · by_cases hshort : rest.length < p1.toNat * 256 + p2.toNat
        · simp [hindicator, hmax, hshort]
        · have hlen : min (p1.toNat * 256 + p2.toNat) rest.length =
              p1.toNat * 256 + p2.toNat := by omega
          simp [hindicator, hmax, hshort, hlen]

variable (P : Primitives)

/-- The `switch` of `next`. -/
def dispatch (raw : Bytes) (s : NoiseFrameHelper) : Advance × NoiseFrameHelper :=
  match s.state with
  | .expectServerHello => handleServerHello raw s
  | .expectHandshake => handleServerHandshake P raw s
  | .failed => (.needMore, s)
  | .ready => handleData P raw s

/-- What the `switch` comes to, by the state and the raw frame. -/
inductive Dispatched (raw : Bytes) (s : NoiseFrameHelper) : Advance × NoiseFrameHelper → Prop
  | ignored (hstate : s.state = .failed) : Dispatched raw s (.needMore, s)
  | reported (what : CString) (t : NoiseFrameHelper)
      (hstate : s.state = .expectServerHello ∨ s.state = .expectHandshake)
      (hhandlers : t.handlers = s.handlers) (hexpected : t.expectedName = s.expectedName) :
      Dispatched raw s (reportError what t)
  | greeted (hello : Bytes) (hstate : s.state = .expectServerHello) (hraw : raw = 0x01 :: hello)
      (hname : s.expectedName ≠ [] → hello.takeWhile (· ≠ 0x00) = s.expectedName) :
      Dispatched raw s (.silent, { s with
        serverName := hello.takeWhile (· ≠ 0x00)
        state := .expectHandshake })
  | accepted (message : Bytes) (out : Bytes) (t : NoiseFrameHelper)
      (hstate : s.state = .expectHandshake) (hraw : raw = 0x00 :: message)
      (hread : (s.handshake.readMessage P message).1 = some out) (hready : t.state = .ready)
      (hhandlers : t.handlers = s.handlers) (hserver : t.serverName = s.serverName)
      (hexpected : t.expectedName = s.expectedName) :
      Dispatched raw s (if s.handlers then .ready else .silent, t)
  | threw (e : ApiException) (decrypt : CipherState) (hstate : s.state = .ready) :
      Dispatched raw s (.throws e, { s with decrypt := decrypt })
  | returned (frame : Frame) (decrypt : CipherState) (hstate : s.state = .ready) :
      Dispatched raw s (.ok frame, { s with decrypt := decrypt })

theorem parseInner_cases (pt : Bytes) :
    (∃ e, parseInner pt = .throws e) ∨ ∃ frame, parseInner pt = .ok frame := by
  unfold parseInner
  split
  · simp only
    split
    · exact Or.inl ⟨_, rfl⟩
    · exact Or.inr ⟨_, rfl⟩
  · exact Or.inl ⟨_, rfl⟩

theorem dispatched (raw : Bytes) (s : NoiseFrameHelper) :
    Dispatched P raw s (dispatch P raw s) := by
  unfold dispatch
  cases hstate : s.state with
  | expectServerHello =>
      simp only [handleServerHello]
      split
      · exact .reported _ _ (Or.inl hstate) rfl rfl
      · split
        · exact .reported _ _ (Or.inl hstate) rfl rfl
        · rename_i hello hproto
          split
          · exact .reported _ _ (Or.inl hstate) rfl rfl
          · rename_i hname
            refine .greeted hello hstate (by rw [not_not.mp hproto]) ?_
            intro hexpected
            by_contra hne
            exact hname ⟨hexpected, hne⟩
  | expectHandshake =>
      simp only [handleServerHandshake]
      split
      · exact .reported _ _ (Or.inr hstate) rfl rfl
      · split
        · exact .reported _ _ (Or.inr hstate) rfl rfl
        · rename_i message hmarker
          split
          · exact .reported _ _ (Or.inr hstate) rfl rfl
          · rename_i hread
            obtain ⟨out, hout⟩ := Option.ne_none_iff_exists'.mp hread
            exact .accepted message out _ hstate (by rw [not_not.mp hmarker]) hout rfl rfl rfl rfl
  | ready =>
      simp only [handleData]
      cases s.decrypt.decryptWithAd P [] raw with
      | mk out decrypt =>
          cases out with
          | error e => exact .threw _ decrypt hstate
          | ok pt =>
              rcases parseInner_cases pt with ⟨e, he⟩ | ⟨frame, hframe⟩
              · simp only [he]
                exact .threw e decrypt hstate
              · simp only [hframe]
                exact .returned frame decrypt hstate
  | failed => exact .ignored hstate

/-- The handlers neither read nor write the receive buffer. -/
theorem dispatch_rebuffer (raw buffer : Bytes) (consumed : Nat) (s : NoiseFrameHelper) :
    dispatch P raw (s.rebuffer buffer consumed) =
      ((dispatch P raw s).1, (dispatch P raw s).2.rebuffer buffer consumed) := by
  unfold dispatch
  cases hstate : s.state with
  | expectServerHello =>
      simp only [rebuffer, hstate, handleServerHello]
      split
      · rfl
      · split
        · rfl
        · split <;> rfl
  | expectHandshake =>
      simp only [rebuffer, hstate, handleServerHandshake]
      split
      · rfl
      · split
        · rfl
        · split <;> rfl
  | ready =>
      cases hdecrypt : s.decrypt.decryptWithAd P [] raw with
      | mk out decrypt => cases out <;> simp only [rebuffer, hstate, handleData, hdecrypt]
  | failed => simp only [rebuffer, hstate]

theorem advance_eq (s : NoiseFrameHelper) :
    s.advance P = match parseRaw s.unconsumed with
      | .needMore => (.needMore, s.rebuffer s.unconsumed 0)
      | .fail e => (.throws e, s.rebuffer s.unconsumed 0)
      | .item raw _ _ =>
          ((dispatch P raw s).1, (dispatch P raw s).2.rebuffer s.unconsumed (3 + raw.length)) := by
  unfold advance
  rw [nextRaw_eq]
  cases parseRaw s.unconsumed with
  | needMore => rfl
  | fail e => rfl
  | item raw u rest =>
      simp only
      rw [← dispatch_rebuffer]
      rfl

/-- Besides the buffer, `advance` moves nothing, or what the handler of a raw
frame moves. -/
theorem advance_dispatched (s : NoiseFrameHelper) :
    (∃ out, (out = .needMore ∨ ∃ e, out = .throws e) ∧
      s.advance P = (out, s.rebuffer s.unconsumed 0)) ∨
    ∃ raw out consumed, Dispatched P raw s out ∧
      s.advance P = (out.1, out.2.rebuffer s.unconsumed consumed) := by
  rw [advance_eq]
  cases parseRaw s.unconsumed with
  | needMore => exact Or.inl ⟨.needMore, Or.inl rfl, rfl⟩
  | fail e => exact Or.inl ⟨.throws e, Or.inr ⟨e, rfl⟩, rfl⟩
  | item raw u rest => exact Or.inr ⟨raw, dispatch P raw s, 3 + raw.length, dispatched P raw s, rfl⟩

/-! ## What is observed -/

/-- What an observer of a helper sees, and an unheard failure. -/
inductive Occurrence where
  /-- `on_ready` -/
  | ready
  /-- `next` returned a frame -/
  | frame (frame : Frame)
  /-- the handshake failed; `on_error` with its text, if it is installed -/
  | failed (what : Option CString)
  /-- an exception left `next` -/
  | thrown (e : ApiException)
  deriving DecidableEq

def Occurrence.fails : Occurrence → Bool
  | .failed _ => true
  | .thrown _ => true
  | _ => false

/-- What one iteration shows that ends in state `after`. -/
def observed (out : Advance) (after : NoiseState) : List Occurrence :=
  match out with
  | .needMore => []
  | .ok frame => [.frame frame]
  | .throws e => [.thrown e]
  | .silent => if after = .failed then [.failed none] else []
  | .ready => [.ready]
  | .error what => [.failed (some what)]

/-- A helper being fed, with what has been observed. -/
structure Session where
  helper : NoiseFrameHelper
  trace : List Occurrence := []

namespace Session

/-- One iteration of `next`, called again while it returns `Ok`. -/
def turn (s : Session) : Session × Bool :=
  let out := s.helper.advance P
  (⟨out.2, s.trace ++ observed out.1 out.2.state⟩, out.1.continues)

/-- A chunk is fed, and `next` is called until it stops returning `Ok`. -/
def receive (s : Session) (chunk : Bytes) : Session :=
  let helper := s.helper.feed chunk
  loop (turn P) (helper.unconsumed.length + 1) { s with helper := helper }

end Session

/-- The observations up to and including the first failure. -/
def upToFailure : List Occurrence → List Occurrence
  | [] => []
  | o :: os => if o.fails then [o] else o :: upToFailure os

theorem upToFailure_append {os : List Occurrence} (h : ∀ o ∈ os, o.fails = false)
    (after : List Occurrence) : upToFailure (os ++ after) = os ++ upToFailure after := by
  induction os with
  | nil => simp
  | cons o os ih =>
      have hhead := h o (by simp)
      have htail := ih fun o ho => h o (by simp [ho])
      simp [upToFailure, hhead, htail]

/-! ## The decoder -/

/-- What the helper makes of a raw frame, up to the first failure. -/
def respond (s : NoiseFrameHelper) (raw : Bytes) :
    Except Occurrence (List Occurrence × NoiseFrameHelper) :=
  let out := dispatch P raw s
  match (observed out.1 out.2.state).find? Occurrence.fails with
  | some o => .error o
  | none => .ok (observed out.1 out.2.state, out.2)

/-- The helper as a decoder. Its state is the helper without a buffer. -/
def decoder : StreamDecoder NoiseFrameHelper UInt8 (List Occurrence) Occurrence :=
  rawDecoder.handled .thrown (respond P)

variable {P}

/-- One iteration shows one thing at most. -/
theorem observed_of_mem {out : Advance} {after : NoiseState} {o : Occurrence}
    (h : o ∈ observed out after) : observed out after = [o] := by
  cases out with
  | needMore => simp [observed] at h
  | silent =>
      by_cases hfailed : after = .failed
      · simp only [observed, if_pos hfailed] at h ⊢
        rw [List.mem_singleton.mp h]
      · simp [observed, hfailed] at h
  | ok frame => rw [List.mem_singleton.mp h, observed]
  | throws e => rw [List.mem_singleton.mp h, observed]
  | ready => rw [List.mem_singleton.mp h, observed]
  | error what => rw [List.mem_singleton.mp h, observed]

theorem observed_reportError (what : CString) (t : NoiseFrameHelper) :
    observed (reportError what t).1 (reportError what t).2.state =
      [.failed (if t.handlers then some what else none)] := by
  by_cases hhandlers : t.handlers <;> simp [reportError, hhandlers, observed]

/-- Where nothing fails, the loop goes on and the helper is not in state
`Failed`. -/
theorem dispatch_continues {s : NoiseFrameHelper} {raw : Bytes} (hstate : s.state ≠ .failed)
    (h : (observed (dispatch P raw s).1 (dispatch P raw s).2.state).find? Occurrence.fails = none) :
    (dispatch P raw s).1.continues = true ∧ (dispatch P raw s).2.state ≠ .failed := by
  have hcases := dispatched P raw s
  generalize dispatch P raw s = out at h hcases ⊢
  cases hcases with
  | ignored hfailed => exact absurd hfailed hstate
  | reported what t _ _ _ =>
      rw [observed_reportError] at h
      simp [Occurrence.fails] at h
  | greeted hello _ _ _ => exact ⟨rfl, nofun⟩
  | accepted message out t _ _ _ hready _ _ _ =>
      refine ⟨?_, by simp [hready]⟩
      by_cases hhandlers : s.handlers <;> simp [hhandlers, Advance.continues]
  | threw e decrypt _ => simp [observed, Occurrence.fails] at h
  | returned frame decrypt hready => exact ⟨rfl, by simp [hready]⟩

/-- The helper without its receive buffer. -/
def core (s : NoiseFrameHelper) : NoiseFrameHelper := s.rebuffer [] 0

@[simp] theorem core_rebuffer (buffer : Bytes) (consumed : Nat) (s : NoiseFrameHelper) :
    (s.rebuffer buffer consumed).core = s.core := rfl

theorem respond_core (s : NoiseFrameHelper) (raw : Bytes) :
    respond P s.core raw =
      match (observed (dispatch P raw s).1 (dispatch P raw s).2.state).find? Occurrence.fails with
      | some o => .error o
      | none =>
          .ok (observed (dispatch P raw s).1 (dispatch P raw s).2.state, (dispatch P raw s).2.core) := by
  unfold respond core
  rw [dispatch_rebuffer]
  rfl

/-! ## The loop is the decoder -/

namespace Session

/-- A session shows what a decoder has read: everything, or everything up to
the failure that ended the stream. -/
def Shows (s : Session) (r : List (List Occurrence) × Ending NoiseFrameHelper UInt8 Occurrence) :
    Prop :=
  (∀ o ∈ r.1.flatten, o.fails = false) ∧
    match r.2 with
    | .waiting t x => s.trace = r.1.flatten ∧ t.state ≠ .failed ∧ t = t.core ∧
        s.helper = t.rebuffer x 0
    | .rejected o => o.fails = true ∧ ∃ after, s.trace = r.1.flatten ++ o :: after

theorem Shows.congr {s : Session} {items items' : List (List Occurrence)}
    {ending : Ending NoiseFrameHelper UInt8 Occurrence} (h : s.Shows (items, ending))
    (hflat : items'.flatten = items.flatten) : s.Shows (items', ending) := by
  simpa only [Shows, hflat] using h

theorem Shows.upToFailure {s : Session}
    {r : List (List Occurrence) × Ending NoiseFrameHelper UInt8 Occurrence} (h : s.Shows r) :
    upToFailure s.trace = r.1.flatten ++ match r.2 with
      | .waiting _ _ => []
      | .rejected o => [o] := by
  obtain ⟨hitems, hend⟩ := h
  cases hcase : r.2 with
  | waiting t x =>
      rw [hcase] at hend
      have happ := upToFailure_append hitems []
      simpa [hend.1, NoiseFrameHelper.upToFailure] using happ
  | rejected o =>
      rw [hcase] at hend
      obtain ⟨hfails, after, htrace⟩ := hend
      simp [htrace, upToFailure_append hitems, NoiseFrameHelper.upToFailure, hfails]

/-- The loop only adds to the trace. -/
theorem loop_trace (fuel : Nat) (s : Session) : s.trace <+: (loop (turn P) fuel s).trace := by
  have hturn : ∀ s : Session, True → s.trace <+: (turn P s).1.trace := by
    intro s _
    exact List.prefix_append _ _
  exact loop_of_turns (R := fun s t : Session => s.trace <+: t.trace)
    (fun _ => List.prefix_rfl) (fun h₁ h₂ => h₁.trans h₂) hturn fuel s (fun _ _ => trivial)

section Turn

variable {s : Session} {raw rest : Bytes} {u : Unit}

/-- A raw frame that shows a failure: the decoder fails with it. -/
theorem turn_failed (hparse : parseRaw s.helper.unconsumed = .item raw u rest) {o : Occurrence}
    (hfind : (observed (dispatch P raw s.helper).1 (dispatch P raw s.helper).2.state).find?
      Occurrence.fails = some o) :
    (decoder P).step s.helper.core s.helper.unconsumed = .fail o ∧
      (turn P s).1.trace = s.trace ++ [o] := by
  have hadvance := advance_eq P s.helper
  have hobserved := observed_of_mem (List.mem_of_find?_eq_some hfind)
  rw [hparse] at hadvance
  constructor
  · simp [decoder, StreamDecoder.handled, rawDecoder, hparse, respond_core, hfind]
  · rw [turn, hadvance, ← hobserved]
    rfl

/-- A raw frame that shows no failure: the decoder takes it and the loop goes on. -/
theorem turn_quiet (hparse : parseRaw s.helper.unconsumed = .item raw u rest)
    (hstate : s.helper.state ≠ .failed)
    (hfind : (observed (dispatch P raw s.helper).1 (dispatch P raw s.helper).2.state).find?
      Occurrence.fails = none) :
    (decoder P).step s.helper.core s.helper.unconsumed =
        .item (observed (dispatch P raw s.helper).1 (dispatch P raw s.helper).2.state)
          (dispatch P raw s.helper).2.core rest ∧
      turn P s = (⟨(dispatch P raw s.helper).2.rebuffer s.helper.unconsumed (3 + raw.length),
        s.trace ++ observed (dispatch P raw s.helper).1 (dispatch P raw s.helper).2.state⟩,
          true) := by
  have hadvance := advance_eq P s.helper
  obtain ⟨hgo, -⟩ := dispatch_continues hstate hfind
  rw [hparse] at hadvance
  constructor
  · simp [decoder, StreamDecoder.handled, rawDecoder, hparse, respond_core, hfind]
  · rw [turn, hadvance, ← hgo]
    rfl

/-- What is left behind a raw frame. -/
theorem drop_raw {x : Bytes} (hparse : parseRaw x = .item raw u rest) :
    x.drop (3 + raw.length) = rest := by
  obtain ⟨hx, -⟩ := parseRaw_item hparse
  rw [hx, wrap_eq, Nat.add_comm]
  simp

/-- A loop that begins with a failure shows it. -/
theorem loop_failed {o : Occurrence} {x : Bytes} (fuel : Nat) (hfails : o.fails = true)
    (hstep : (decoder P).step s.helper.core x = .fail o)
    (hturn : (turn P s).1.trace = s.trace ++ [o]) (htrace : ∀ o ∈ s.trace, o.fails = false) :
    (loop (turn P) (fuel + 1) s).Shows
      (s.trace :: ((decoder P).drain s.helper.core x).1, ((decoder P).drain s.helper.core x).2) := by
  have hprefix : s.trace ++ [o] <+: (loop (turn P) (fuel + 1) s).trace := by
    rw [loop, ← hturn]
    split
    · exact loop_trace fuel _
    · exact List.prefix_rfl
  obtain ⟨after, hafter⟩ := hprefix
  rw [(decoder P).drain_fail hstep]
  refine ⟨by simpa using htrace, hfails, after, ?_⟩
  simp [← hafter]

end Turn

/-- Running the loop on unconsumed bytes is draining the decoder. -/
theorem loop_shows (fuel : Nat) (s : Session) (hfuel : s.helper.unconsumed.length < fuel)
    (hstate : s.helper.state ≠ .failed) (htrace : ∀ o ∈ s.trace, o.fails = false) :
    (loop (turn P) fuel s).Shows
      (s.trace :: ((decoder P).drain s.helper.core s.helper.unconsumed).1,
        ((decoder P).drain s.helper.core s.helper.unconsumed).2) := by
  induction fuel generalizing s with
  | zero => exact absurd hfuel (Nat.not_lt_zero _)
  | succ fuel ih =>
      have hadvance := advance_eq P s.helper
      cases hparse : parseRaw s.helper.unconsumed with
      | needMore =>
          have hstep : (decoder P).step s.helper.core s.helper.unconsumed = .needMore := by
            simp [decoder, StreamDecoder.handled, rawDecoder, hparse]
          rw [hparse] at hadvance
          rw [(decoder P).drain_needMore hstep, loop]
          simp only [turn, hadvance, Advance.continues, observed]
          refine ⟨by simpa using htrace, by simp, hstate, rfl, rfl⟩
      | fail e =>
          have hstep : (decoder P).step s.helper.core s.helper.unconsumed = .fail (.thrown e) := by
            simp [decoder, StreamDecoder.handled, rawDecoder, hparse]
          rw [hparse] at hadvance
          exact loop_failed fuel rfl hstep (by rw [turn, hadvance]; rfl) htrace
      | item raw u rest =>
          cases hfind : (observed (dispatch P raw s.helper).1
              (dispatch P raw s.helper).2.state).find? Occurrence.fails with
          | some o =>
              obtain ⟨hstep, hturn⟩ := turn_failed hparse hfind
              exact loop_failed fuel (List.find?_some hfind) hstep hturn htrace
          | none =>
              obtain ⟨hstep, hturn⟩ := turn_quiet hparse hstate hfind
              obtain ⟨-, hnext⟩ := dispatch_continues hstate hfind
              have hquiet : ∀ o ∈ observed (dispatch P raw s.helper).1
                  (dispatch P raw s.helper).2.state, o.fails = false := by
                simpa using hfind
              have hlt : rest.length < s.helper.unconsumed.length := (decoder P).shrinks hstep
              have hrec := ih (turn P s).1
                (by rw [hturn, unconsumed_rebuffer, drop_raw hparse]; omega)
                (by rw [hturn]; exact hnext)
                (by
                  rw [hturn]
                  intro o ho
                  exact (List.mem_append.mp ho).elim (htrace o) (hquiet o))
              rw [hturn] at hrec
              rw [(decoder P).drain_item hstep, loop, hturn, if_pos rfl]
              simp only [unconsumed_rebuffer, drop_raw hparse, core_rebuffer] at hrec
              exact hrec.congr (by simp)

/-- The arrival of a chunk is an arrival at the decoder. -/
theorem receive_shows {s : Session}
    {r : List (List Occurrence) × Ending NoiseFrameHelper UInt8 Occurrence} (h : s.Shows r)
    (chunk : Bytes) : (s.receive P chunk).Shows ((decoder P).feed r chunk) := by
  obtain ⟨items, ending⟩ := r
  obtain ⟨hitems, hend⟩ := h
  cases ending with
  | waiting t x =>
      obtain ⟨htrace, hstate, hcore, hhelper⟩ := hend
      have hfed : (s.helper.feed chunk).unconsumed = x ++ chunk := by
        rw [hhelper]
        rfl
      have hsame : (s.helper.feed chunk).core = t := by
        rw [hhelper, hcore]
        rfl
      have hshows := loop_shows (P := P) ((s.helper.feed chunk).unconsumed.length + 1)
        { s with helper := s.helper.feed chunk } (Nat.lt_succ_self _)
        (by rw [hhelper]; exact hstate) (by rw [htrace]; exact hitems)
      simp only [hsame, hfed] at hshows
      rw [receive, hfed]
      exact hshows.congr (by simp [htrace])
  | rejected o =>
      obtain ⟨hfails, after, htrace⟩ := hend
      obtain ⟨more, hmore⟩ := loop_trace (P := P) ((s.helper.feed chunk).unconsumed.length + 1)
        { s with helper := s.helper.feed chunk }
      refine ⟨hitems, hfails, after ++ more, ?_⟩
      rw [receive, ← hmore, htrace]
      simp [StreamDecoder.feed]

theorem receiveAll_shows (chunks : List Bytes) {s : Session}
    {r : List (List Occurrence) × Ending NoiseFrameHelper UInt8 Occurrence} (h : s.Shows r) :
    (chunks.foldl (receive P) s).Shows (chunks.foldl (decoder P).feed r) := by
  induction chunks generalizing s r with
  | nil => exact h
  | cons chunk chunks ih =>
      rw [List.foldl_cons, List.foldl_cons]
      exact ih (receive_shows h chunk)

end Session

/-- A helper to which nothing has been fed. -/
structure Fresh (s : NoiseFrameHelper) : Prop where
  state : s.state = .expectServerHello
  buffer : s.buffer = []
  consumed : s.consumed = 0

theorem fresh_create {config : NoiseConfig} {random : Octets 32} {s : NoiseFrameHelper}
    (h : create P config random = .ok s) : Fresh s := by
  unfold create at h
  split at h
  · exact nomatch h
  · split at h
    · cases h
      exact ⟨rfl, rfl, rfl⟩
    · exact nomatch h

theorem Fresh.connectBytes {s : NoiseFrameHelper} (h : Fresh s) : Fresh (s.connectBytes P).2 :=
  ⟨h.state, h.buffer, h.consumed⟩

theorem Fresh.setHandshakeHandlers {s : NoiseFrameHelper} (h : Fresh s) :
    Fresh s.setHandshakeHandlers :=
  ⟨h.state, h.buffer, h.consumed⟩

theorem Fresh.shows {s : NoiseFrameHelper} (h : Fresh s) :
    Session.Shows ⟨s, []⟩ ([], .waiting s []) := by
  have hcore : s = s.core := by
    unfold core rebuffer
    rw [← h.buffer, ← h.consumed]
  refine ⟨by simp, rfl, ?_, hcore, hcore⟩
  rw [h.state]
  exact nofun

/-- Two ways of cutting a byte string into chunks show the same up to the
first failure; and without one they leave the helper in the same state, with
the same ciphers and the same bytes unconsumed. -/
theorem noise_reassembly_chunking {s : NoiseFrameHelper} (h : Fresh s)
    (chunks₁ chunks₂ : List Bytes) (hflat : chunks₁.flatten = chunks₂.flatten) :
    let end₁ := chunks₁.foldl (Session.receive P) ⟨s, []⟩
    let end₂ := chunks₂.foldl (Session.receive P) ⟨s, []⟩
    upToFailure end₁.trace = upToFailure end₂.trace ∧
      ((∀ o ∈ end₁.trace, o.fails = false) → end₁ = end₂) := by
  have hstart : (decoder P).step s [] = .needMore := rfl
  have h₁ := Session.receiveAll_shows (P := P) chunks₁ h.shows
  have h₂ := Session.receiveAll_shows (P := P) chunks₂ h.shows
  rw [(decoder P).foldl_feed chunks₁ [] s [] hstart] at h₁
  rw [(decoder P).foldl_feed chunks₂ [] s [] hstart, ← hflat] at h₂
  refine ⟨by rw [h₁.upToFailure, h₂.upToFailure], ?_⟩
  intro hquiet
  obtain ⟨-, hend₁⟩ := h₁
  obtain ⟨-, hend₂⟩ := h₂
  cases hcase : ((decoder P).drain s ([] ++ chunks₁.flatten)).2 with
  | waiting t x =>
      simp only [hcase] at hend₁ hend₂
      obtain ⟨htrace₁, -, -, hhelper₁⟩ := hend₁
      obtain ⟨htrace₂, -, -, hhelper₂⟩ := hend₂
      rw [Session.mk.injEq]
      exact ⟨hhelper₁.trans hhelper₂.symm, htrace₁.trans htrace₂.symm⟩
  | rejected o =>
      simp only [hcase] at hend₁
      obtain ⟨hfails, after, htrace₁⟩ := hend₁
      have hin := hquiet o (by simp [htrace₁])
      rw [hfails] at hin
      cases hin

/-- A server hello with an empty name and the beginning of the handshake
frame, cut in two ways. -/
theorem noise_reassembly_chunking_hello :
    ∃ s, create .toy zeroConfig (Octets.zero 32) = .ok s ∧
      (let end₁ := [[1], [0, 2, 1], [0, 1, 0]].foldl (Session.receive .toy) ⟨s, []⟩
       let end₂ := [[1, 0, 2, 1, 0], [1, 0]].foldl (Session.receive .toy) ⟨s, []⟩
       upToFailure end₁.trace = upToFailure end₂.trace ∧
         ((∀ o ∈ end₁.trace, o.fails = false) → end₁ = end₂)) := by
  obtain ⟨s, hs⟩ : ∃ s, create .toy zeroConfig (Octets.zero 32) = .ok s := ⟨_, rfl⟩
  exact ⟨s, hs, noise_reassembly_chunking (fresh_create hs) _ _ rfl⟩

end EsphomeApi.NoiseFrameHelper
