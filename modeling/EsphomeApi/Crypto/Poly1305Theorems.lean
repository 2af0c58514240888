/-
EsphomeApi.Crypto.Poly1305Theorems — Poly1305 as a polynomial: the bytes are
cut into blocks of sixteen, each with a one put behind it, and evaluated at
the clamped half of the key modulo `2 ^ 130 - 5`; the other half is added.

How the proof goes. An update takes in full blocks and keeps the rest, as
`Library.BlockStream` says it should (`poly1305Update_eq`), so only all
the bytes together count. The limbs follow the accumulator block by block
(`Follows`), and the end of the code is the end of the definition.
-/
import EsphomeApi.Crypto.Poly1305Limbs

namespace EsphomeApi.Noise

open Library

/-! ## The definition -/

/-- The accumulator after a block: Horner's rule, with a one behind the bytes. -/
def poly1305Step (r acc : Nat) (block : Bytes) : Nat :=
  (acc + LittleEndian.value (block ++ [1])) * r % prime1305

/-- The polynomial of a message, the last block perhaps short. -/
def poly1305Accumulate (r : Nat) (m : Bytes) : Nat :=
  let (acc, rest) := BlockStream.absorb 16 (poly1305Step r) 0 m
  if rest = [] then acc else poly1305Step r acc rest

/-- Poly1305 of a message under a key of two halves. -/
def poly1305Mac (key m : Bytes) : Bytes :=
  LittleEndian.bytes 16
    (poly1305Accumulate (clamp (LittleEndian.value (key.take 16))) m +
      LittleEndian.value (key.drop 16))

/-! ## Updates -/

/-- The bit above a full block. -/
def fullHibit : UInt32 := (1 : UInt32) <<< 24

theorem poly1305Blocks_eq {st : Poly1305} (hfinal : st.final = 0) (m : Bytes) :
    poly1305Blocks st m =
      { st with h := BlockStream.blocks 16 (st.r.block fullHibit) (m.length / 16) st.h m } := by
  rw [poly1305Blocks, if_neg (not_not.mpr hfinal)]
  rfl

/-- The full blocks of a piece, and what is left of it. -/
theorem poly1305UpdateBlocks_eq {st : Poly1305} (hfinal : st.final = 0) (m : Bytes) :
    poly1305UpdateBlocks st m =
      { st with
        h := (BlockStream.absorb 16 (st.r.block fullHibit) st.h m).1
        buffer := (BlockStream.absorb 16 (st.r.block fullHibit) st.h m).2
        leftover_lt := BlockStream.length_absorb_lt (by decide) _ _ } := by
  have hwant : m.length - m.length % 16 = 16 * (m.length / 16) := by omega
  have hblocks : (if m.length ≥ 16 then poly1305Blocks st (m.take (m.length - m.length % 16))
      else st) = { st with h := (BlockStream.absorb 16 (st.r.block fullHibit) st.h m).1 } := by
    split
    · have hcount : (m.take (16 * (m.length / 16))).length / 16 = m.length / 16 := by
        rw [List.length_take]
        omega
      have hsame := BlockStream.blocks_append_right (f := st.r.block fullHibit) (n := 16)
        (m.length / 16) st.h (m.take (16 * (m.length / 16))) (m.drop (16 * (m.length / 16)))
        (by rw [List.length_take]; omega)
      rw [List.take_append_drop] at hsame
      rw [poly1305Blocks_eq hfinal, hwant, hcount, ← hsame]
      rfl
    · next h => rw [BlockStream.absorb_of_lt (by omega)]
  rw [poly1305UpdateBlocks, hblocks]
  simp only [BlockStream.absorb, hwant]

/-- An update takes in what the buffer and the piece make together. -/
theorem poly1305Update_eq {st : Poly1305} (hfinal : st.final = 0) (m : Bytes) :
    poly1305Update st m =
      { st with
        h := (BlockStream.absorb 16 (st.r.block fullHibit) st.h (st.buffer ++ m)).1
        buffer := (BlockStream.absorb 16 (st.r.block fullHibit) st.h (st.buffer ++ m)).2
        leftover_lt := BlockStream.length_absorb_lt (by decide) _ _ } := by
  have hlt := st.leftover_lt
  unfold poly1305Update
  by_cases hempty : st.leftover = 0
  · have hbuffer : st.buffer = [] := List.length_eq_zero_iff.mp hempty
    rw [if_neg (not_not.mpr hempty), poly1305UpdateBlocks_eq hfinal]
    simp only [hbuffer, List.nil_append]
  · rw [if_pos hempty]
    have hleft : st.leftover = st.buffer.length := rfl
    simp only [hleft]
    by_cases hshort : (st.buffer ++ m.take (min (16 - st.buffer.length) m.length)).length < 16
    · -- the piece only fills the buffer further
      have hlen : st.buffer.length + m.length < 16 := by
        rw [List.length_append, List.length_take] at hshort
        omega
      have htake : m.take (min (16 - st.buffer.length) m.length) = m :=
        List.take_of_length_le (by omega)
      have hall : BlockStream.absorb 16 (st.r.block fullHibit) st.h (st.buffer ++ m) =
          (st.h, st.buffer ++ m) :=
        BlockStream.absorb_of_lt (by rw [List.length_append]; exact hlen)
      rw [dif_pos hshort]
      simp only [htake, hall]
    · -- it completes the buffered block
      have hblock : (st.buffer ++ m.take (min (16 - st.buffer.length) m.length)).length = 16 := by
        rw [List.length_append, List.length_take] at hshort ⊢
        omega
      have hwhole : st.buffer ++ m = st.buffer ++
          m.take (min (16 - st.buffer.length) m.length) ++
            m.drop (min (16 - st.buffer.length) m.length) := by
        rw [List.append_assoc, List.take_append_drop]
      have hfirst := poly1305Blocks_eq hfinal
        (st.buffer ++ m.take (min (16 - st.buffer.length) m.length))
      rw [hblock] at hfirst
      rw [dif_neg hshort, hfirst]
      refine (poly1305UpdateBlocks_eq ?_ _).trans ?_
      · exact hfinal
      simp only [hwhole, BlockStream.absorb_block (by decide) hblock, BlockStream.blocks,
        List.take_of_length_le hblock.le]

/-- The fields that an update leaves alone. -/
theorem poly1305Update_frame {st : Poly1305} (hfinal : st.final = 0) (m : Bytes) :
    (poly1305Update st m).r = st.r ∧ (poly1305Update st m).pad = st.pad ∧
      (poly1305Update st m).final = 0 := by
  rw [poly1305Update_eq hfinal]
  exact ⟨rfl, rfl, hfinal⟩

/-- Updates one after another take in their pieces as one. -/
theorem foldl_poly1305Update : ∀ (pieces : List Bytes) {st : Poly1305}, st.final = 0 →
    (pieces.foldl poly1305Update st).r = st.r ∧ (pieces.foldl poly1305Update st).pad = st.pad ∧
      (pieces.foldl poly1305Update st).final = 0 ∧
      ((pieces.foldl poly1305Update st).h, (pieces.foldl poly1305Update st).buffer) =
        BlockStream.absorb 16 (st.r.block fullHibit) st.h (st.buffer ++ pieces.flatten)
  | [], st, hfinal => by
      have hlt := st.leftover_lt
      rw [List.flatten_nil, List.append_nil, BlockStream.absorb_of_lt hlt]
      exact ⟨rfl, rfl, hfinal, rfl⟩
  | m :: pieces, st, hfinal => by
      obtain ⟨hr, hpad, hfin⟩ := poly1305Update_frame hfinal m
      obtain ⟨hr', hpad', hfin', hrest⟩ := foldl_poly1305Update pieces hfin
      have hboth := BlockStream.absorb_append (n := 16) (f := st.r.block fullHibit) (by decide) st.h
        (st.buffer ++ m) pieces.flatten
      rw [List.foldl_cons]
      refine ⟨hr'.trans hr, hpad'.trans hpad, hfin', ?_⟩
      rw [hrest, hr, List.flatten_cons, ← List.append_assoc, hboth, poly1305Update_eq hfinal]

/-! ## The accumulator -/

/-- The limbs hold the accumulator, modulo `p`. -/
structure Follows (h : Limbs) (acc : Nat) : Prop where
  reduced : h.Reduced
  modEq : h.value ≡ acc [MOD prime1305]

theorem follows_zero : Follows ⟨0, 0, 0, 0, 0⟩ 0 := ⟨Limbs.reduced_zero, rfl⟩

/-- A block and the bit above it: a one behind the bytes, and zeros behind
that up to sixteen. -/
theorem Follows.block {h : Limbs} {acc : Nat} (hh : Follows h acc) {r : Limbs} (hr : r.Clamped)
    {hibit : UInt32} (hbit : IsHibit hibit) {m block : Bytes} (hm : m.length = 16)
    (hvalue : LittleEndian.value m + 2 ^ 104 * hibit.toNat = LittleEndian.value (block ++ [1])) :
    Follows (r.block hibit h m) (poly1305Step r.value acc block) := by
  obtain ⟨hred, hmod⟩ := Limbs.block_spec hr hbit hh.reduced hm
  refine ⟨hred, hmod.trans ?_⟩
  rw [Nat.add_assoc, hvalue, poly1305Step]
  exact ((hh.modEq.add_right _).mul_right _).trans (Nat.mod_modEq _ _).symm

theorem Follows.fullBlock {r : Limbs} (hr : r.Clamped) (h : Limbs) (acc : Nat) (block : Bytes)
    (hh : Follows h acc) (hlen : block.length = 16) :
    Follows (r.block fullHibit h block) (poly1305Step r.value acc block) := by
  refine hh.block hr (Or.inr rfl) hlen ?_
  rw [LittleEndian.value_append, hlen]
  rfl

theorem Follows.lastBlock {r : Limbs} (hr : r.Clamped) {h : Limbs} {acc : Nat} {rest : Bytes}
    (hh : Follows h acc) (hlen : rest.length < 16) :
    Follows (r.block 0 h (rest ++ [1] ++ List.replicate (15 - rest.length) 0))
      (poly1305Step r.value acc rest) := by
  refine hh.block hr (Or.inl rfl) ?_ ?_
  · simp only [List.length_append, List.length_cons, List.length_nil, List.length_replicate]
    omega
  · rw [LittleEndian.value_append, LittleEndian.value_replicate_zero]
    rfl

/-- The end: the residue plus the other half of the key. -/
theorem Follows.finish {h : Limbs} {acc : Nat} (hh : Follows h acc) (hacc : acc < prime1305)
    (pad : Words4) :
    ((h.fullCarry.select h.fullCarry.minusP).pack.add pad).store.val =
      LittleEndian.bytes 16 (acc + pad.value) := by
  obtain ⟨hdigits, hfull⟩ := Limbs.fullCarry_spec hh.reduced
  obtain ⟨hselect, hvalue⟩ := Limbs.select_spec hdigits
  have hresidue : h.fullCarry.value % prime1305 = acc := by
    rw [hfull.trans hh.modEq, Nat.mod_eq_of_lt hacc]
  rw [Words4.store_spec, Words4.add_spec, Limbs.pack_spec hselect, hvalue, hresidue,
    Nat.mod_add_mod]
  exact LittleEndian.bytes_mod 16 (acc + pad.value)

theorem poly1305Step_lt (r acc : Nat) (block : Bytes) : poly1305Step r acc block < prime1305 :=
  Nat.mod_lt _ (by decide)

theorem poly1305Blocks_lt (r : Nat) : ∀ (k acc : Nat) (m : Bytes), acc < prime1305 →
    BlockStream.blocks 16 (poly1305Step r) k acc m < prime1305
  | 0, _, _, h => h
  | k + 1, _, _, _ => poly1305Blocks_lt r k _ _ (poly1305Step_lt ..)

theorem poly1305Finish_eq {st : Poly1305} (hr : st.r.Clamped) {acc : Nat}
    (hacc : acc < prime1305) (hh : Follows st.h acc) :
    (poly1305Finish st).val =
      LittleEndian.bytes 16
        ((if st.buffer = [] then acc else poly1305Step st.r.value acc st.buffer) +
          st.pad.value) := by
  have hlt := st.leftover_lt
  have hleft : st.leftover = st.buffer.length := rfl
  by_cases hempty : st.buffer = []
  · have hlast : poly1305LastBlock st = st := by
      rw [poly1305LastBlock, if_neg (by rw [hleft, hempty]; simp)]
    rw [poly1305Finish, hlast, if_pos hempty]
    exact hh.finish hacc st.pad
  · have hlen : (st.buffer ++ [1] ++ List.replicate (15 - st.leftover) 0).length / 16 = 1 := by
      simp only [hleft, List.length_append, List.length_cons, List.length_nil,
        List.length_replicate]
      omega
    have hlast : poly1305LastBlock st =
        { st with
          final := 1
          h := st.r.block 0 st.h (st.buffer ++ [1] ++ List.replicate (15 - st.buffer.length) 0) } := by
      have hpos : st.leftover ≠ 0 := fun h => hempty (List.length_eq_zero_iff.mp h)
      rw [poly1305LastBlock, if_pos hpos, poly1305Blocks, hlen]
      simp only [BlockStream.blocks, hleft]
      rw [List.take_of_length_le (by simp; omega)]
      rfl
    rw [poly1305Finish, hlast, if_neg hempty]
    exact (hh.lastBlock hr hlt).finish (poly1305Step_lt ..) st.pad

/-- Poly1305 of the code, for every key and every way to cut the message into
updates. -/
theorem poly1305_streaming (key : Octets 32) (pieces : List Bytes) :
    (poly1305Finish (pieces.foldl poly1305Update (poly1305Init key.val))).val =
      poly1305Mac key.val pieces.flatten := by
  obtain ⟨hr, hpad, -, habsorb⟩ :=
    foldl_poly1305Update pieces (show (poly1305Init key.val).final = 0 from rfl)
  have hclamped := poly1305Init_clamped key.val
  -- the limbs follow the accumulator over the full blocks
  obtain ⟨hfollows, hrest⟩ := BlockStream.absorb_rel
    (n := 16) (R := Follows) (Follows.fullBlock hclamped) follows_zero pieces.flatten
  have hh : (pieces.foldl poly1305Update (poly1305Init key.val)).h = (BlockStream.absorb 16
      ((poly1305Init key.val).r.block fullHibit) ⟨0, 0, 0, 0, 0⟩ pieces.flatten).1 :=
    congrArg Prod.fst habsorb
  have hbuffer : (pieces.foldl poly1305Update (poly1305Init key.val)).buffer =
      (BlockStream.absorb 16 (poly1305Step (poly1305Init key.val).r.value) 0 pieces.flatten).2 :=
    (congrArg Prod.snd habsorb).trans hrest
  have hacc : (BlockStream.absorb 16 (poly1305Step (poly1305Init key.val).r.value) 0
      pieces.flatten).1 < prime1305 := poly1305Blocks_lt _ _ _ _ (by decide)
  rw [← hh] at hfollows
  rw [poly1305Finish_eq (hr ▸ hclamped) hacc hfollows, hr, hpad, hbuffer,
    poly1305Init_pad key.property, poly1305Mac, poly1305Accumulate, ← poly1305Init_r key.property]

end EsphomeApi.Noise
