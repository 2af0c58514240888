/-
EsphomeApi.Frame.FrameHelper — the abstract class of `frame_helper.hpp`: a
stateful codec between the transport and the connection.

`next` of the source is a loop when a handshake is in progress: it consumes
handshake frames, invokes the handshake callbacks and goes on. A callback runs
code of the connection, which uses the very helper that is in the middle of
`next`, so the class is given here by ONE iteration of that loop, `advance`,
and the caller runs the loop (`Connection.drainFrames`). A `FrameHelper`
carries the proof that an iteration which does not end the loop consumes
buffered bytes, and that `encode` leaves them alone.
-/
import EsphomeApi.Bytes
import EsphomeApi.Exception

namespace EsphomeApi

/-- The out-parameters of `next`: message type id and payload. -/
structure Frame where
  type : UInt32
  payload : Bytes
  deriving DecidableEq, Repr

/-- `max_frame_payload`: 16 MiB. -/
def maxFramePayload : Nat := 16 * 1024 * 1024

/-- What one iteration of the loop of `next` comes to. -/
inductive Advance where
  /-- `return FrameStatus::NeedMore` -/
  | needMore
  /-- `return FrameStatus::Ok` -/
  | ok (frame : Frame)
  /-- an exception leaves `next` -/
  | throws (e : ApiException)
  /-- a handshake frame was consumed, no callback was invoked -/
  | silent
  /-- the handshake completed and `on_ready_` is invoked -/
  | ready
  /-- the handshake failed and `on_error_` is invoked -/
  | error (what : CString)
  deriving DecidableEq, Repr

/-- Whether the loop of the caller goes on after this iteration. -/
def Advance.continues : Advance → Bool
  | .needMore => false
  | .throws _ => false
  | _ => true

/-- The virtual functions of `FrameHelper`, over the state `σ` of an
implementation. -/
structure FrameHelper (σ : Type) where
  encode : UInt32 → Bytes → σ → Bytes × σ
  feed : Bytes → σ → σ
  advance : σ → Advance × σ
  needsHandshake : Bool
  connectBytes : σ → Bytes × σ
  setHandshakeHandlers : σ → σ
  /-- the number of bytes fed and not consumed yet -/
  buffered : σ → Nat
  advance_buffered : ∀ s, (advance s).1.continues = true →
    buffered (advance s).2 < buffered s
  encode_buffered : ∀ type payload s, buffered (encode type payload s).2 = buffered s

/-- Two frame helpers that answer alike as long as their states are related. -/
structure Bisimulation {σ τ : Type} (H : FrameHelper σ) (K : FrameHelper τ) (R : σ → τ → Prop) :
    Prop where
  encode : ∀ type payload {f g}, R f g →
    (H.encode type payload f).1 = (K.encode type payload g).1 ∧
      R (H.encode type payload f).2 (K.encode type payload g).2
  feed : ∀ data {f g}, R f g → R (H.feed data f) (K.feed data g)
  advance : ∀ {f g}, R f g →
    (H.advance f).1 = (K.advance g).1 ∧ R (H.advance f).2 (K.advance g).2
  needsHandshake : H.needsHandshake = K.needsHandshake
  connectBytes : ∀ {f g}, R f g →
    (H.connectBytes f).1 = (K.connectBytes g).1 ∧ R (H.connectBytes f).2 (K.connectBytes g).2
  setHandshakeHandlers : ∀ {f g}, R f g → R (H.setHandshakeHandlers f) (K.setHandshakeHandlers g)
  buffered : ∀ {f g}, R f g → H.buffered f = K.buffered g

/-- A helper is like itself. -/
theorem Bisimulation.refl {σ : Type} (H : FrameHelper σ) : Bisimulation H H (· = ·) where
  encode _ _ := fun h => h ▸ ⟨rfl, rfl⟩
  feed _ := fun h => h ▸ rfl
  advance := fun h => h ▸ ⟨rfl, rfl⟩
  needsHandshake := rfl
  connectBytes := fun h => h ▸ ⟨rfl, rfl⟩
  setHandshakeHandlers := fun h => h ▸ rfl
  buffered := fun h => h ▸ rfl

end EsphomeApi
