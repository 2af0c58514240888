/-
EsphomeApi.Frame.Helpers — the two frame helpers as `FrameHelper`s: each of
them with the proof that an iteration of `next` which goes on has consumed
bytes, and that `encode` leaves the receive buffer alone.
-/
import EsphomeApi.Frame.NoiseTheorems
import EsphomeApi.Frame.PlaintextTheorems

namespace EsphomeApi

/-! ## Plaintext -/

namespace PlaintextFrameHelper

/-- `next` as a loop of one iteration. -/
def advance (h : PlaintextFrameHelper) : Advance × PlaintextFrameHelper :=
  match h.next with
  | (.ok none, h) => (.needMore, h)
  | (.ok (some frame), h) => (.ok frame, h)
  | (.error e, h) => (.throws e, h)

theorem advance_unconsumed (h : PlaintextFrameHelper) (hgo : h.advance.1.continues = true) :
    h.advance.2.unconsumed.length < h.unconsumed.length := by
  unfold advance at hgo ⊢
  split
  · next hnext => simp only [hnext, Advance.continues, Bool.false_eq_true] at hgo
  · next frame h' hnext => exact unconsumed_next_lt hnext
  · next e h' hnext => simp only [hnext, Advance.continues, Bool.false_eq_true] at hgo

theorem advance_needMore {h : PlaintextFrameHelper} (hparse : parseFrame h.unconsumed = .needMore) :
    h.advance = (.needMore, { buffer := h.unconsumed, consumed := 0 }) := by
  have hnext := h.next_eq
  rw [hparse] at hnext
  unfold advance
  rw [hnext]
  rfl

theorem unconsumed_feed {h : PlaintextFrameHelper} (hle : h.consumed ≤ h.buffer.length)
    (data : Bytes) : (h.feed data).unconsumed = h.unconsumed ++ data :=
  List.drop_append_of_le_length hle

theorem advance_item {h : PlaintextFrameHelper} {frame : Frame} {rest : Bytes}
    (hparse : parseFrame h.unconsumed = .item frame () rest) :
    h.advance.1 = .ok frame ∧ h.advance.2.unconsumed = rest := by
  have hnext := h.next_eq
  have hrest := unconsumed_ofVerdict_item hparse
  rw [hparse] at hnext
  unfold advance
  rw [hnext]
  exact ⟨rfl, hrest⟩

/-- `PlaintextFrameHelper` as the connection drives it. -/
def frameHelper : FrameHelper PlaintextFrameHelper where
  encode type payload h := (encode type payload [], h)
  feed := feed
  advance := advance
  needsHandshake := false
  connectBytes h := ([], h)
  setHandshakeHandlers h := h
  buffered h := h.unconsumed.length
  advance_buffered := advance_unconsumed
  encode_buffered _ _ _ := rfl

/-- The same bytes are left to be read. -/
structure SameStream (f g : PlaintextFrameHelper) : Prop where
  unconsumed : f.unconsumed = g.unconsumed
  left : f.consumed ≤ f.buffer.length
  right : g.consumed ≤ g.buffer.length

theorem advance_congr {f g : PlaintextFrameHelper} (h : f.unconsumed = g.unconsumed) :
    f.advance = g.advance := by
  rw [advance, advance, next_eq, next_eq, h]

/-- `next` never consumes more than was fed. -/
theorem advance_consumed (f : PlaintextFrameHelper) :
    f.advance.2.consumed ≤ f.advance.2.buffer.length := by
  have hnext := f.next_eq
  unfold advance
  rw [hnext]
  cases parseFrame f.unconsumed with
  | needMore => exact Nat.zero_le _
  | fail e => exact Nat.zero_le _
  | item frame _ rest => exact Nat.sub_le _ _

/-- No call tells two helpers with the same bytes left apart. -/
theorem bisimulation_stream : Bisimulation frameHelper frameHelper SameStream where
  encode _ _ := fun h => ⟨rfl, h⟩
  feed data {f g} h := by
    refine ⟨?_, ?_, ?_⟩
    · exact (unconsumed_feed h.left data).trans
        ((congrArg (· ++ data) h.unconsumed).trans (unconsumed_feed h.right data).symm)
    · exact Nat.le_trans h.left (by simp [frameHelper, PlaintextFrameHelper.feed])
    · exact Nat.le_trans h.right (by simp [frameHelper, PlaintextFrameHelper.feed])
  advance {f g} h := by
    have hsame := advance_congr h.unconsumed
    exact ⟨congrArg Prod.fst hsame, congrArg (unconsumed ·.2) hsame, advance_consumed f,
      advance_consumed g⟩
  needsHandshake := rfl
  connectBytes := fun h => ⟨rfl, h⟩
  setHandshakeHandlers := fun h => h
  buffered := fun h => congrArg List.length h.unconsumed

end PlaintextFrameHelper

/-! ## Noise -/

namespace NoiseFrameHelper

open Noise

/-- The bytes fed and not consumed yet. -/
def unconsumed (s : NoiseFrameHelper) : Bytes := s.buffer.drop s.consumed

theorem compact_buffer (s : NoiseFrameHelper) :
    s.compact.buffer = s.unconsumed ∧ s.compact.consumed = 0 := by
  unfold compact unconsumed
  split
  · next hzero => exact ⟨by rw [hzero, List.drop_zero], hzero⟩
  · split
    · next hall => exact ⟨(List.drop_eq_nil_of_le hall).symm, rfl⟩
    · exact ⟨rfl, rfl⟩

/-- A raw frame is at least its header. -/
theorem nextRaw_unconsumed {s : NoiseFrameHelper} {raw : Bytes} (h : s.nextRaw.1 = .ok (some raw)) :
    s.nextRaw.2.unconsumed.length < s.unconsumed.length := by
  obtain ⟨hbuffer, -⟩ := compact_buffer s
  unfold nextRaw at h ⊢
  cases hcompact : s.compact.buffer with
  | nil => simp only [hcompact, Except.ok.injEq, reduceCtorEq] at h
  | cons p0 rest0 =>
      cases rest0 with
      | nil => simp only [hcompact, Except.ok.injEq, reduceCtorEq] at h
      | cons p1 rest1 =>
          cases rest1 with
          | nil => simp only [hcompact, Except.ok.injEq, reduceCtorEq] at h
          | cons p2 rest =>
              rw [← hbuffer, hcompact]
              simp only [hcompact] at h ⊢
              split at h
              · split at h <;> simp only [reduceCtorEq] at h
              · next hindicator =>
                  rw [if_neg hindicator]
                  split at h
                  · simp only [reduceCtorEq] at h
                  · next hmax =>
                      rw [if_neg hmax]
                      split at h
                      · simp only [Except.ok.injEq, reduceCtorEq] at h
                      · next hshort =>
                          rw [if_neg hshort]
                          simp only [unconsumed, List.length_drop, List.length_cons]
                          omega

theorem handleServerHello_buffer (payload : Bytes) (s : NoiseFrameHelper) :
    (handleServerHello payload s).2.unconsumed = s.unconsumed := by
  unfold handleServerHello
  split
  · rfl
  · split
    · rfl
    · dsimp only
      split <;> rfl

theorem handleServerHandshake_buffer (P : Primitives) (payload : Bytes) (s : NoiseFrameHelper) :
    (handleServerHandshake P payload s).2.unconsumed = s.unconsumed := by
  unfold handleServerHandshake
  split
  · rfl
  · split
    · rfl
    · dsimp only
      split <;> rfl

theorem handleData_buffer (P : Primitives) (raw : Bytes) (s : NoiseFrameHelper) :
    (handleData P raw s).2.unconsumed = s.unconsumed := by
  unfold handleData
  split <;> rfl

theorem advance_unconsumed (P : Primitives) (s : NoiseFrameHelper)
    (hgo : (s.advance P).1.continues = true) :
    (s.advance P).2.unconsumed.length < s.unconsumed.length := by
  unfold advance at hgo ⊢
  cases hnext : s.nextRaw with
  | mk out s' =>
      cases out with
      | error e => simp only [hnext, Advance.continues, Bool.false_eq_true] at hgo
      | ok item =>
          cases item with
          | none => simp only [hnext, Advance.continues, Bool.false_eq_true] at hgo
          | some raw =>
              have hraw : s.nextRaw.1 = .ok (some raw) := by rw [hnext]
              have hlt := nextRaw_unconsumed hraw
              rw [hnext] at hlt
              simp only [hnext] at hgo ⊢
              split
              · rw [handleServerHello_buffer]
                exact hlt
              · rw [handleServerHandshake_buffer]
                exact hlt
              · next hstate => simp only [hstate, Advance.continues, Bool.false_eq_true] at hgo
              · rw [handleData_buffer]
                exact hlt

/-- `NoiseFrameHelper` as the connection drives it. -/
def frameHelper (P : Primitives) : FrameHelper NoiseFrameHelper where
  encode type payload s := encode P type payload [] s
  feed := feed
  advance := advance P
  needsHandshake := true
  connectBytes := connectBytes P
  setHandshakeHandlers := setHandshakeHandlers
  buffered s := s.unconsumed.length
  advance_buffered := advance_unconsumed P
  encode_buffered _ _ _ := rfl

end NoiseFrameHelper

end EsphomeApi
