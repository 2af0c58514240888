/-
EsphomeApi.Crypto.Poly1305 — the authenticator of `chacha20poly1305.cpp`: five
limbs of 26 bits in 32-bit words, products in 64-bit words, and a buffer for
the bytes that do not fill a block.

The three parts of a turn of `poly1305_blocks` and the five parts of
`poly1305_finish` are functions of their own, as the comments of the source
divide them. What they compute is the subject of `Crypto.Poly1305Limbs` and
`Crypto.Poly1305Theorems`.
-/
import EsphomeApi.Crypto.ChaCha20
import EsphomeApi.Library.BlockStream

namespace EsphomeApi.Noise

open Library

/-- `std::uint32_t[5]`. -/
structure Limbs where
  l0 : UInt32
  l1 : UInt32
  l2 : UInt32
  l3 : UInt32
  l4 : UInt32
  deriving DecidableEq, Repr

/-- The products `d0` to `d4`. -/
structure WideLimbs where
  d0 : UInt64
  d1 : UInt64
  d2 : UInt64
  d3 : UInt64
  d4 : UInt64

/-- `std::uint32_t[4]`. -/
structure Words4 where
  w0 : UInt32
  w1 : UInt32
  w2 : UInt32
  w3 : UInt32
  deriving DecidableEq, Repr

/-- `struct Poly1305`. Of `buffer` there are the first `leftover` bytes, the
only ones that are read. -/
structure Poly1305 where
  r : Limbs
  h : Limbs
  pad : Words4
  buffer : Bytes
  final : UInt8
  leftover_lt : buffer.length < 16

/-- `leftover`. -/
def Poly1305.leftover (st : Poly1305) : Nat := st.buffer.length

def u8to32 (p : Bytes) : UInt32 := load32Le p

/-- `poly1305_init`. -/
def poly1305Init (key : Bytes) : Poly1305 where
  r :=
    { l0 := u8to32 key &&& 0x3ffffff
      l1 := (u8to32 (key.drop 3) >>> 2) &&& 0x3ffff03
      l2 := (u8to32 (key.drop 6) >>> 4) &&& 0x3ffc0ff
      l3 := (u8to32 (key.drop 9) >>> 6) &&& 0x3f03fff
      l4 := (u8to32 (key.drop 12) >>> 8) &&& 0x00fffff }
  h := ⟨0, 0, 0, 0, 0⟩
  pad :=
    { w0 := u8to32 (key.drop 16)
      w1 := u8to32 (key.drop 20)
      w2 := u8to32 (key.drop 24)
      w3 := u8to32 (key.drop 28) }
  buffer := []
  final := 0
  leftover_lt := Nat.zero_lt_succ 15

/-! ## `poly1305_blocks` -/

/-- `h += m[i]`. -/
def Limbs.addBlock (h : Limbs) (hibit : UInt32) (m : Bytes) : Limbs where
  l0 := h.l0 + (u8to32 m &&& 0x3ffffff)
  l1 := h.l1 + ((u8to32 (m.drop 3) >>> 2) &&& 0x3ffffff)
  l2 := h.l2 + ((u8to32 (m.drop 6) >>> 4) &&& 0x3ffffff)
  l3 := h.l3 + ((u8to32 (m.drop 9) >>> 6) &&& 0x3ffffff)
  l4 := h.l4 + ((u8to32 (m.drop 12) >>> 8) ||| hibit)

/-- `h *= r`, with `s1 = r1 * 5` and so on. -/
def Limbs.mul (h r : Limbs) : WideLimbs :=
  let s1 := r.l1 * 5
  let s2 := r.l2 * 5
  let s3 := r.l3 * 5
  let s4 := r.l4 * 5
  { d0 := h.l0.toUInt64 * r.l0.toUInt64 + h.l1.toUInt64 * s4.toUInt64 +
      h.l2.toUInt64 * s3.toUInt64 + h.l3.toUInt64 * s2.toUInt64 + h.l4.toUInt64 * s1.toUInt64
    d1 := h.l0.toUInt64 * r.l1.toUInt64 + h.l1.toUInt64 * r.l0.toUInt64 +
      h.l2.toUInt64 * s4.toUInt64 + h.l3.toUInt64 * s3.toUInt64 + h.l4.toUInt64 * s2.toUInt64
    d2 := h.l0.toUInt64 * r.l2.toUInt64 + h.l1.toUInt64 * r.l1.toUInt64 +
      h.l2.toUInt64 * r.l0.toUInt64 + h.l3.toUInt64 * s4.toUInt64 + h.l4.toUInt64 * s3.toUInt64
    d3 := h.l0.toUInt64 * r.l3.toUInt64 + h.l1.toUInt64 * r.l2.toUInt64 +
      h.l2.toUInt64 * r.l1.toUInt64 + h.l3.toUInt64 * r.l0.toUInt64 + h.l4.toUInt64 * s4.toUInt64
    d4 := h.l0.toUInt64 * r.l4.toUInt64 + h.l1.toUInt64 * r.l3.toUInt64 +
      h.l2.toUInt64 * r.l2.toUInt64 + h.l3.toUInt64 * r.l1.toUInt64 +
      h.l4.toUInt64 * r.l0.toUInt64 }

/-- `(partial) h %= p`. -/
def WideLimbs.carry (d : WideLimbs) : Limbs :=
  let c := (d.d0 >>> 26).toUInt32
  let h0 := d.d0.toUInt32 &&& 0x3ffffff
  let d1 := d.d1 + c.toUInt64
  let c := (d1 >>> 26).toUInt32
  let h1 := d1.toUInt32 &&& 0x3ffffff
  let d2 := d.d2 + c.toUInt64
  let c := (d2 >>> 26).toUInt32
  let h2 := d2.toUInt32 &&& 0x3ffffff
  let d3 := d.d3 + c.toUInt64
  let c := (d3 >>> 26).toUInt32
  let h3 := d3.toUInt32 &&& 0x3ffffff
  let d4 := d.d4 + c.toUInt64
  let c := (d4 >>> 26).toUInt32
  let h4 := d4.toUInt32 &&& 0x3ffffff
  let h0 := h0 + c * 5
  let c := h0 >>> 26
  let h0 := h0 &&& 0x3ffffff
  let h1 := h1 + c
  ⟨h0, h1, h2, h3, h4⟩

/-- The body of the loop of `poly1305_blocks`. -/
def Limbs.block (r : Limbs) (hibit : UInt32) (h : Limbs) (m : Bytes) : Limbs :=
  ((h.addBlock hibit m).mul r).carry

/-- `poly1305_blocks`. -/
def poly1305Blocks (st : Poly1305) (m : Bytes) : Poly1305 :=
  let hibit : UInt32 := if st.final ≠ 0 then 0 else (1 : UInt32) <<< 24
  { st with h := BlockStream.blocks 16 (st.r.block hibit) (m.length / 16) st.h m }

/-! ## `poly1305_update` -/

theorem length_rest_lt (m : Bytes) : (m.drop (m.length - m.length % 16)).length < 16 := by
  have hmod := Nat.mod_lt m.length (show 0 < 16 by decide)
  rw [List.length_drop]
  omega

/-- `poly1305_update` with an empty buffer: the full blocks, then the rest. -/
def poly1305UpdateBlocks (st : Poly1305) (m : Bytes) : Poly1305 :=
  let want := m.length - m.length % 16
  let st := if m.length ≥ 16 then poly1305Blocks st (m.take want) else st
  { st with buffer := m.drop want, leftover_lt := length_rest_lt m }

/-- `poly1305_update`. -/
def poly1305Update (st : Poly1305) (m : Bytes) : Poly1305 :=
  if st.leftover ≠ 0 then
    let want := min (16 - st.leftover) m.length
    let buffer := st.buffer ++ m.take want
    if h : buffer.length < 16 then { st with buffer := buffer, leftover_lt := h }
    else poly1305UpdateBlocks (poly1305Blocks st buffer) (m.drop want)
  else poly1305UpdateBlocks st m

/-! ## `poly1305_finish` -/

/-- The remaining block: a one, then zeros. -/
def poly1305LastBlock (st : Poly1305) : Poly1305 :=
  if st.leftover ≠ 0 then
    poly1305Blocks { st with final := 1 }
      (st.buffer ++ [1] ++ List.replicate (15 - st.leftover) 0)
  else st

/-- Fully carry `h`. -/
def Limbs.fullCarry (h : Limbs) : Limbs :=
  let c := h.l1 >>> 26
  let h1 := h.l1 &&& 0x3ffffff
  let h2 := h.l2 + c
  let c := h2 >>> 26
  let h2 := h2 &&& 0x3ffffff
  let h3 := h.l3 + c
  let c := h3 >>> 26
  let h3 := h3 &&& 0x3ffffff
  let h4 := h.l4 + c
  let c := h4 >>> 26
  let h4 := h4 &&& 0x3ffffff
  let h0 := h.l0 + c * 5
  let c := h0 >>> 26
  let h0 := h0 &&& 0x3ffffff
  let h1 := h1 + c
  ⟨h0, h1, h2, h3, h4⟩

/-- Compute `h + -p`. -/
def Limbs.minusP (h : Limbs) : Limbs :=
  let g0 := h.l0 + 5
  let c := g0 >>> 26
  let g0 := g0 &&& 0x3ffffff
  let g1 := h.l1 + c
  let c := g1 >>> 26
  let g1 := g1 &&& 0x3ffffff
  let g2 := h.l2 + c
  let c := g2 >>> 26
  let g2 := g2 &&& 0x3ffffff
  let g3 := h.l3 + c
  let c := g3 >>> 26
  let g3 := g3 &&& 0x3ffffff
  let g4 := h.l4 + c - ((1 : UInt32) <<< 26)
  ⟨g0, g1, g2, g3, g4⟩

/-- Select `h` if `h < p`, or `h + -p` if `h >= p`. -/
def Limbs.select (h g : Limbs) : Limbs :=
  let mask := (g.l4 >>> 31) - 1
  let keep := ~~~mask
  { l0 := (h.l0 &&& keep) ||| (g.l0 &&& mask)
    l1 := (h.l1 &&& keep) ||| (g.l1 &&& mask)
    l2 := (h.l2 &&& keep) ||| (g.l2 &&& mask)
    l3 := (h.l3 &&& keep) ||| (g.l3 &&& mask)
    l4 := (h.l4 &&& keep) ||| (g.l4 &&& mask) }

/-- `h = h % (2^128)`. -/
def Limbs.pack (h : Limbs) : Words4 where
  w0 := (h.l0 ||| (h.l1 <<< 26)) &&& 0xffffffff
  w1 := ((h.l1 >>> 6) ||| (h.l2 <<< 20)) &&& 0xffffffff
  w2 := ((h.l2 >>> 12) ||| (h.l3 <<< 14)) &&& 0xffffffff
  w3 := ((h.l3 >>> 18) ||| (h.l4 <<< 8)) &&& 0xffffffff

/-- `mac = (h + pad) % (2^128)`. -/
def Words4.add (h pad : Words4) : Words4 :=
  let f := h.w0.toUInt64 + pad.w0.toUInt64
  let h0 := f.toUInt32
  let f := h.w1.toUInt64 + pad.w1.toUInt64 + (f >>> 32)
  let h1 := f.toUInt32
  let f := h.w2.toUInt64 + pad.w2.toUInt64 + (f >>> 32)
  let h2 := f.toUInt32
  let f := h.w3.toUInt64 + pad.w3.toUInt64 + (f >>> 32)
  let h3 := f.toUInt32
  ⟨h0, h1, h2, h3⟩

def Words4.store (w : Words4) : Octets 16 :=
  ⟨store32Le w.w0 ++ store32Le w.w1 ++ store32Le w.w2 ++ store32Le w.w3, rfl⟩

/-- `poly1305_finish`. -/
def poly1305Finish (st : Poly1305) : Octets 16 :=
  let st := poly1305LastBlock st
  let h := st.h.fullCarry
  ((h.select h.minusP).pack.add st.pad).store

/-! ## `poly1305_verify` -/

/-- `poly1305_verify`: 1 if the tags are equal, found in constant time. -/
def poly1305Verify (mac1 mac2 : Octets 16) : UInt32 :=
  let dif := (mac1.val.zip mac2.val).foldl (fun dif b => dif ||| (b.1 ^^^ b.2).toUInt32) 0
  (dif - 1) >>> 31

end EsphomeApi.Noise
