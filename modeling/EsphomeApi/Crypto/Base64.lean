/-
EsphomeApi.Crypto.Base64 — `base64_decode` of `primitives.cpp`, which reads
the pre-shared key of a configuration.
-/
import EsphomeApi.Bytes
import EsphomeApi.Exception

namespace EsphomeApi.Noise

/-- `base64_value`; `none` for its -1. -/
def base64Value (c : UInt8) : Option UInt8 :=
  if 65 ≤ c ∧ c ≤ 90 then some (c - 65)
  else if 97 ≤ c ∧ c ≤ 122 then some (c - 97 + 26)
  else if 48 ≤ c ∧ c ≤ 57 then some (c - 48 + 52)
  else if c = 43 then some 62
  else if c = 47 then some 63
  else none

/-- The character `=`. -/
def base64Pad : UInt8 := 61

/-- The loop over the quartets: the bytes it appends, or `none` where it
returns `false`. Padding is accepted only in the last quartet, and only over
zero bits. -/
def base64Quartets : CString → Option Bytes
  | c0 :: c1 :: c2 :: c3 :: rest =>
      match base64Value c0, base64Value c1 with
      | some v0, some v1 =>
          let b0 := (v0 <<< 2) ||| (v1 >>> 4)
          if c2 = base64Pad then
            if rest ≠ [] ∨ c3 ≠ base64Pad ∨ v1 &&& 0x0F ≠ 0 then none else some [b0]
          else
            match base64Value c2 with
            | none => none
            | some v2 =>
                let b1 := (v1 <<< 4) ||| (v2 >>> 2)
                if c3 = base64Pad then
                  if rest ≠ [] ∨ v2 &&& 0x03 ≠ 0 then none else some [b0, b1]
                else
                  match base64Value c3 with
                  | none => none
                  | some v3 =>
                      let b2 := (v2 <<< 6) ||| v3
                      (base64Quartets rest).map fun tail => b0 :: b1 :: b2 :: tail
      | _, _ => none
  | _ => some []

/-- `base64_decode`: `none` for `false`, with which it leaves `out` empty. -/
def base64Decode (text : CString) : Option Bytes :=
  if text.length % 4 ≠ 0 then none else base64Quartets text

end EsphomeApi.Noise
