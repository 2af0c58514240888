/-
EsphomeApi.Frame.Plaintext — the unencrypted frame codec of
`plaintext_frame_helper.cpp`:

    [0x00][varint payload_length][varint msg_type][payload]

`next` reads off a buffer that is compacted LAZILY: the bytes of the frame it
returned stay in the buffer, counted by `consumed_`, until the next call.
-/
import EsphomeApi.Frame.FrameHelper

namespace EsphomeApi

structure PlaintextFrameHelper where
  buffer : Bytes := []
  consumed : Nat := 0
  deriving DecidableEq, Repr

namespace PlaintextFrameHelper

/-- Indicator byte that prefixes every plaintext frame. -/
def indicator : UInt8 := 0x00

/-- Length and type varints are capped at 4 bytes. -/
def varintBudget : Nat := 4

/-- `encode`, appending to `out`. -/
def encode (msgType : UInt32) (payload out : Bytes) : Bytes :=
  appendVarint (appendVarint (out ++ [indicator]) (UInt32.ofNat payload.length)) msgType ++ payload

def feed (data : Bytes) (h : PlaintextFrameHelper) : PlaintextFrameHelper :=
  { h with buffer := h.buffer ++ data }

/-- Drop the bytes consumed by the previous successful `next`. -/
def compact (h : PlaintextFrameHelper) : PlaintextFrameHelper :=
  if h.consumed = 0 then h
  else if h.consumed ≥ h.buffer.length then { buffer := [], consumed := 0 }
  else { buffer := h.buffer.drop h.consumed, consumed := 0 }

def encryptionMismatch : ApiException :=
  ⟨.encryptionMismatchError, lit "device requires encryption; provide a Noise PSK with --key / -k"⟩

def badIndicator (b : UInt8) : ApiException :=
  ⟨.protocolError, lit "plaintext frame: bad indicator byte (got 0x" ++ toCString b.toNat ++
    lit ", expected 0x00)"⟩

def lengthTooLong : ApiException :=
  ⟨.protocolError, lit "plaintext frame: payload length varint too long"⟩

def typeTooLong : ApiException :=
  ⟨.protocolError, lit "plaintext frame: message type varint too long"⟩

def lengthExceedsMaximum : ApiException :=
  ⟨.protocolError, lit "plaintext frame: payload length exceeds maximum"⟩

/-- `next`: `ok none` is `NeedMore`, `ok (some _)` is `Ok` with its
out-parameters, `error` is an exception thrown. -/
def next (h : PlaintextFrameHelper) : Except ApiException (Option Frame) × PlaintextFrameHelper :=
  let h := h.compact
  match h.buffer with
  | [] => (.ok none, h)
  | b :: rest =>
      if b ≠ indicator then
        if b = 0x01 then (.error encryptionMismatch, h) else (.error (badIndicator b), h)
      else
        match decodeVarint rest varintBudget with
        | .incomplete => (.ok none, h)
        | .overflow => (.error lengthTooLong, h)
        | .ok payloadLen consumed₁ =>
            match decodeVarint (rest.drop consumed₁) varintBudget with
            | .incomplete => (.ok none, h)
            | .overflow => (.error typeTooLong, h)
            | .ok msgType consumed₂ =>
                let cursor := 1 + consumed₁ + consumed₂
                if payloadLen.toNat > maxFramePayload then (.error lengthExceedsMaximum, h)
                else if h.buffer.length - cursor < payloadLen.toNat then (.ok none, h)
                else
                  (.ok (some ⟨msgType, (h.buffer.drop cursor).take payloadLen.toNat⟩),
                    { h with consumed := cursor + payloadLen.toNat })

/-- The bytes fed and not returned in a frame yet. -/
def unconsumed (h : PlaintextFrameHelper) : Bytes := h.buffer.drop h.consumed

end PlaintextFrameHelper

end EsphomeApi
