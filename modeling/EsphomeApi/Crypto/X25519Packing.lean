/-
EsphomeApi.Crypto.X25519Packing — the bytes of a field element.

`unpack25519` reads a little-endian number and drops its top bit. The way back
is canonical: after three passes the limbs are digits, and two conditional
subtractions of the prime bring their number, which is below `2 ^ 256`, under
the prime (`packTurn_spec`). So `pack25519` writes the residue itself, whatever
limbs the element had (`pack25519_spec`).
-/
import EsphomeApi.Crypto.X25519Limbs

namespace EsphomeApi.Noise

open Library Library.SignedWord

namespace Gf

/-! ## Selection -/

theorem zipWith_eq_left {p q : Gf} {f : Int64 → Int64 → Int64} (hf : ∀ x y, f x y = x) :
    Vector.zipWith f p q = p := by
  ext i hi
  simp [hf]

theorem zipWith_eq_right {p q : Gf} {f : Int64 → Int64 → Int64} (hf : ∀ x y, f x y = y) :
    Vector.zipWith f p q = q := by
  ext i hi
  simp [hf]

theorem sel25519_zero (p q : Gf) : sel25519 p q 0 = (p, q) := by
  have hmask : (~~~((0 : Int32) - 1)).toInt64 = 0 := rfl
  unfold sel25519
  rw [hmask]
  exact Prod.ext (zipWith_eq_left fun x y => by simp) (zipWith_eq_right fun x y => by simp)

theorem sel25519_one (p q : Gf) : sel25519 p q 1 = (q, p) := by
  have hmask : (~~~((1 : Int32) - 1)).toInt64 = -1 := rfl
  unfold sel25519
  rw [hmask]
  refine Prod.ext (zipWith_eq_right fun x y => ?_) (zipWith_eq_left fun x y => ?_)
  · rw [Int64.neg_one_and, ← Int64.xor_assoc, Int64.xor_self, Int64.zero_xor]
  · rw [Int64.neg_one_and, Int64.xor_comm x y, ← Int64.xor_assoc, Int64.xor_self, Int64.zero_xor]

/-! ## The conditional subtraction -/

/-- The limbs of the prime. -/
def primeLimb (i : Fin 16) : Int :=
  if (i : Nat) = 0 then 0xffed else if (i : Nat) = 15 then 0x7fff else 0xffff

theorem primeLimb_eq (i : Fin 16) :
    primeLimb i = if i = 0 then 0xffed else if i = 15 then 0x7fff else 0xffff :=
  if_congr (Fin.ext_iff (b := 0)).symm rfl (if_congr (Fin.ext_iff (b := 15)).symm rfl rfl)

theorem weigh_primeLimb : weigh primeLimb = prime25519 := by decide

/-- A difference up to limb `i`, whose borrow is still in that limb. -/
structure Borrowing (t : Gf) (i : Nat) (m : Gf) : Prop where
  value : value m = weigh (below (limbs t) (i + 1)) - weigh (below primeLimb (i + 1))
  done : ∀ j : Fin 16, (j : Nat) < i → 0 ≤ limbs m j ∧ limbs m j < 2 ^ 16
  here : ∀ j : Fin 16, (j : Nat) = i → -2 ^ 16 ≤ limbs m j ∧ limbs m j < 2 ^ 16
  later : ∀ j : Fin 16, i < j → limbs m j = 0

/-- Limb `j` in the place after limb `k`, which pays its borrow back. -/
theorem Borrowing.advance {t m : Gf} (ht : Digits t) {i : Nat} (h : Borrowing t i m)
    {k j : Fin 16} (hk : (k : Nat) = i) (hj : (j : Nat) = i + 1) {d e : Int64}
    (hd : d.toInt = limbs t j - primeLimb j - if limbs m k < 0 then 1 else 0)
    (he : e.toInt = limbs m k % 2 ^ 16) : Borrowing t (i + 1) ((m.set j d).set k e) := by
  have hjk : j ≠ k := fun heq => by
    rw [heq] at hj
    omega
  have hlimbs : limbs ((m.set j d).set k e) =
      Function.update (Function.update (limbs m) j d.toInt) k e.toInt := by
    rw [limbs_set, limbs_set]
  have hmk := h.here k hk
  refine ⟨?_, fun n hn => ?_, fun n hn => ?_, fun n hn => ?_⟩
  · have hpow : (2 : Int) ^ (16 * (j : Nat)) = 2 ^ (16 * (k : Nat)) * 2 ^ 16 := by
      rw [hj, hk, Nat.mul_succ, Int.pow_add]
    have hvalue := h.value
    have hbelow : ∀ f : Fin 16 → Int, weigh (below f (i + 1 + 1)) =
        weigh (below f (i + 1)) + f j * 2 ^ (16 * (j : Nat)) := by
      intro f
      rw [← hj, weigh_below_succ]
    have hborrow : limbs m k % 2 ^ 16 = limbs m k + 2 ^ 16 * if limbs m k < 0 then 1 else 0 := by
      split <;> omega
    rw [Gf.value, hlimbs, weigh_update, weigh_update, Function.update_of_ne hjk.symm,
      h.later j (by omega), hbelow, hbelow, hd, he, hborrow, hpow]
    rw [Gf.value] at hvalue
    rw [hvalue]
    ring
  · rw [hlimbs]
    by_cases hnk : n = k
    · rw [hnk, Function.update_self, he]
      omega
    · have hnj : n ≠ j := fun heq => by
        rw [heq] at hn
        omega
      have hlt : (n : Nat) < i := by
        have : (n : Nat) ≠ k := fun heq => hnk (Fin.ext heq)
        omega
      rw [Function.update_of_ne hnk, Function.update_of_ne hnj]
      exact h.done n hlt
  · obtain rfl : n = j := Fin.ext (by omega)
    have htn := ht n
    rw [hlimbs, Function.update_of_ne hjk, Function.update_self, hd, primeLimb_eq]
    split <;> split <;> omega
  · have hnk : n ≠ k := fun heq => by
      rw [heq] at hn
      omega
    have hnj : n ≠ j := fun heq => by
      rw [heq] at hn
      omega
    rw [hlimbs, Function.update_of_ne hnk, Function.update_of_ne hnj]
    exact h.later n (by omega)

theorem primeLimb_bounds (i : Fin 16) : 0 ≤ primeLimb i ∧ primeLimb i ≤ 0xffff := by
  rw [primeLimb_eq]
  split
  · omega
  · split <;> omega

/-- Limb `j` of the difference and the bits that limb `k` keeps. -/
theorem Borrowing.terms {t m : Gf} (ht : Digits t) {i : Nat} (h : Borrowing t i m)
    {k j : Fin 16} (hk : (k : Nat) = i) {c : Int64} (hc : c.toInt = primeLimb j) :
    (∃ d₁ d₂, checkedSub t[j] c = some d₁ ∧ checkedSub d₁ ((m[k] >>> 16) &&& 1) = some d₂ ∧
      d₂.toInt = limbs t j - primeLimb j - if limbs m k < 0 then 1 else 0) ∧
    (m[k] &&& 0xffff).toInt = limbs m k % 2 ^ 16 := by
  have htj := ht j
  have hmk := h.here k hk
  have hp := primeLimb_bounds j
  obtain ⟨d₁, hd₁, vd₁⟩ := checkedSub_eq_some (a := t[j]) (b := c)
    (n := limbs t j - primeLimb j) (by rw [hc]; rfl) (by omega) (by omega)
  have hbit : ((m[k] >>> 16) &&& 1).toInt = if limbs m k < 0 then 1 else 0 :=
    toInt_bit16 m[k] hmk.1 hmk.2
  obtain ⟨d₂, hd₂, vd₂⟩ := checkedSub_eq_some (a := d₁) (b := (m[k] >>> 16) &&& 1)
    (n := limbs t j - primeLimb j - if limbs m k < 0 then 1 else 0) (by rw [vd₁, hbit])
    (by split <;> omega) (by split <;> omega)
  exact ⟨⟨d₁, d₂, hd₁, hd₂, vd₂⟩, toInt_mask _ (by decide) (by decide)⟩

theorem Borrowing.step {t : Gf} (ht : Digits t) (i : Fin 14) (m : Gf) (h : Borrowing t i m) :
    ∃ m', packStep t m i = some m' ∧ Borrowing t (i + 1) m' := by
  have hj : ((i.succ.castLE (by decide) : Fin 16) : Nat) = i + 1 := rfl
  have hc : (0xffff : Int64).toInt = primeLimb (i.succ.castLE (by decide)) := by
    rw [primeLimb_eq, if_neg (fun heq => by have := congrArg Fin.val heq; simp at this),
      if_neg (fun heq => by have := congrArg Fin.val heq; simp at this; omega)]
    rfl
  obtain ⟨⟨d₁, d₂, hd₁, hd₂, hd⟩, he⟩ :=
    h.terms ht (k := i.castLE (by decide)) (j := i.succ.castLE (by decide)) rfl hc
  have hread : (m.set (i.succ.castLE (by decide) : Fin 16) d₂)[(i.castLE (by decide) : Fin 16)] =
      m[(i.castLE (by decide) : Fin 16)] := by
    refine Vector.getElem_set_ne _ _ ?_
    rw [hj, Fin.val_castLE]
    omega
  refine ⟨_, ?_, h.advance ht (k := i.castLE (by decide)) rfl hj hd he⟩
  unfold packStep
  simp only [hd₁, hd₂, hread, Option.bind_eq_bind, Option.bind_some, Option.pure_def]

theorem limbs_zero (i : Fin 16) : limbs zero i = 0 := by
  simp [limbs, zero]

theorem Borrowing.start {t : Gf} (ht : Digits t) :
    ∃ m, packFirst t = some m ∧ Borrowing t 0 m := by
  have ht₀ := ht 0
  obtain ⟨m₀, hm₀, vm₀⟩ := checkedSub_eq_some (a := t[0]) (b := 0xffed)
    (n := limbs t 0 - 0xffed) rfl (by omega) (by omega)
  have hlimbs : limbs (zero.set 0 m₀) = Function.update (limbs zero) 0 m₀.toInt :=
    limbs_set zero 0 m₀
  refine ⟨zero.set 0 m₀, by rw [packFirst, hm₀]; rfl, ?_, fun j hj => absurd hj (Nat.not_lt_zero _), fun j hj => ?_, fun j hj => ?_⟩
  · have hzero : weigh (limbs zero) = 0 :=
      Finset.sum_eq_zero fun i _ => by rw [limbs_zero, Int.zero_mul]
    have hfirst : ∀ f : Fin 16 → Int, weigh (below f (0 + 1)) = f 0 := by
      intro f
      have h := weigh_below_succ f 0
      rw [Fin.val_zero, weigh_below_zero, Nat.mul_zero, Int.pow_zero, Int.mul_one,
        Int.zero_add] at h
      exact h
    rw [Gf.value, hlimbs, weigh_update, hzero, limbs_zero, hfirst, hfirst, vm₀, primeLimb_eq, if_pos rfl,
      Fin.val_zero, Nat.mul_zero]
    ring
  · obtain rfl : j = 0 := Fin.ext hj
    rw [hlimbs, Function.update_self, vm₀]
    omega
  · have hne : j ≠ 0 := fun h => by
      rw [h] at hj
      exact Nat.lt_irrefl 0 hj
    rw [hlimbs, Function.update_of_ne hne, limbs_zero]

/-- A difference is negative where its highest limb is. -/
theorem Borrowing.value_neg_iff {t m : Gf} (h : Borrowing t 15 m) :
    Gf.value m < 0 ↔ limbs m 15 < 0 := by
  obtain ⟨hlow, hlow'⟩ := weigh_digits (f := fun i : Fin 15 => limbs m i.castSucc)
    fun i => h.done i.castSucc i.isLt
  have hsplit : Gf.value m = weigh (fun i : Fin 15 => limbs m i.castSucc) +
      limbs m 15 * 2 ^ (16 * 15) := weigh_castSucc (limbs m)
  omega

/-- The prime is subtracted where it can be. -/
theorem packTurn_spec {t : Gf} (ht : Digits t) :
    ∃ t', packTurn t = some t' ∧ Digits t' ∧
      value t' = if prime25519 ≤ value t then value t - prime25519 else value t := by
  obtain ⟨m₀, hm₀, hstart⟩ := Borrowing.start ht
  obtain ⟨m, hm, hloop⟩ := foldlM_finRange (Borrowing t) (Borrowing.step ht) hstart
  obtain ⟨⟨d₁, d₂, hd₁, hd₂, hd⟩, he⟩ :=
    hloop.terms ht (k := 14) (j := 15) (c := 0x7fff) rfl rfl
  have hlimb : checkedSub t[15] 0x7fff = some d₁ := hd₁
  have hborrow : checkedSub d₁ ((m[14] >>> 16) &&& 1) = some d₂ := hd₂
  have hread : (m.set 15 d₂)[14] = m[14] := Vector.getElem_set_ne _ _ (by decide)
  have hread' : (m.set 15 d₂)[15] = d₂ := Vector.getElem_set_self _
  have hend : Borrowing t 15 ((m.set 15 d₂).set 14 (m[14] &&& 0xffff)) :=
    hloop.advance ht (k := 14) (j := 15) rfl rfl hd he
  have hvalue := hend.value
  rw [below_all, below_all, weigh_primeLimb] at hvalue
  have hsign := hend.value_neg_iff
  have hlast : limbs ((m.set 15 d₂).set 14 (m[14] &&& 0xffff)) 15 = d₂.toInt := by
    simp [limbs]
  have hturn : packTurn t = some (sel25519 t ((m.set 15 d₂).set 14 (m[14] &&& 0xffff))
      ((1 : Int32) - ((d₂ >>> 16) &&& 1).toInt32)).1 := by
    unfold packTurn
    simp only [hm₀, hm, hlimb, hborrow, hread, hread', Option.bind_eq_bind, Option.bind_some,
      Option.pure_def]
  have hd₂ := hend.here 15 rfl
  rw [hlast] at hsign hd₂
  have hbit := toInt_bit16 d₂ hd₂.1 hd₂.2
  by_cases hneg : d₂.toInt < 0
  · have hone : (d₂ >>> 16) &&& 1 = 1 := Int64.toInt_inj.mp (hbit.trans (if_pos hneg))
    refine ⟨t, ?_, ht, ?_⟩
    · rw [hturn, hone, show (1 : Int32) - (1 : Int64).toInt32 = 0 from rfl, sel25519_zero]
    · rw [if_neg (not_le.mpr (by rw [← sub_neg]; exact hvalue ▸ hsign.mpr hneg))]
  · have hzero : (d₂ >>> 16) &&& 1 = 0 := Int64.toInt_inj.mp (hbit.trans (if_neg hneg))
    refine ⟨(m.set 15 d₂).set 14 (m[14] &&& 0xffff), ?_, fun i => ?_, ?_⟩
    · rw [hturn, hzero, show (1 : Int32) - (0 : Int64).toInt32 = 1 from rfl, sel25519_one]
    · by_cases hi : (i : Nat) < 15
      · exact hend.done i hi
      · obtain rfl : i = 15 := Fin.ext (by omega)
        rw [hlast]
        omega
    · have hle : prime25519 ≤ value t := by
        rw [← sub_nonneg]
        exact hvalue ▸ not_lt.mp fun h => hneg (hsign.mp h)
      rw [if_pos hle, hvalue]
      rfl

/-! ## Bytes -/

theorem value_limbBytes {w : Int64} (h : 0 ≤ w.toInt ∧ w.toInt < 2 ^ 16) :
    (LittleEndian.value (limbBytes w) : Int) = w.toInt := by
  have hmask : (w &&& 0xff).toInt = w.toInt % 2 ^ 8 := toInt_mask w (by decide) (by decide)
  have hshift : (w >>> 8).toInt = w.toInt / 2 ^ 8 := toInt_shiftRight w (by decide)
  have hlow := toNat_toUInt8 (x := w &&& 0xff) (by omega) (by omega)
  have hhigh := toNat_toUInt8 (x := w >>> 8) (by omega) (by omega)
  rw [limbBytes, LittleEndian.value_cons, LittleEndian.value_cons, LittleEndian.value_nil]
  omega

/-- The bytes of digits have their value. -/
theorem value_flatMap_limbBytes : ∀ {n : Nat} (w : Fin n → Int64),
    (∀ i, 0 ≤ (w i).toInt ∧ (w i).toInt < 2 ^ 16) →
      (LittleEndian.value ((List.ofFn w).flatMap limbBytes) : Int) = weigh fun i => (w i).toInt
  | 0, _, _ => rfl
  | n + 1, w, h => by
      have hbase : ((256 ^ (limbBytes (w 0)).length : Nat) : Int) = 2 ^ 16 := by
        rw [limbBytes, List.length_cons, List.length_cons, List.length_nil]
        decide
      rw [List.ofFn_succ, List.flatMap_cons, LittleEndian.value_append, Int.natCast_add,
        Int.natCast_mul, hbase, value_limbBytes (h 0),
        value_flatMap_limbBytes (fun i => w i.succ) fun i => h i.succ, weigh_succ]

theorem value_bytes {t : Gf} (ht : Digits t) :
    (LittleEndian.value (t.toList.flatMap limbBytes) : Int) = value t := by
  have hlist : t.toList = List.ofFn fun i : Fin 16 => t[i] := by
    refine List.ext_getElem (by simp) fun i h h' => ?_
    rw [List.getElem_ofFn]
    simp
  rw [hlist]
  exact value_flatMap_limbBytes (fun i => t[i]) ht

theorem Digits.carried {o : Gf} (h : Digits o) : Carried o :=
  ⟨by have := h 0; omega, fun i _ => h i⟩

theorem fe_packTurn {t t' : Gf}
    (h : value t' = if prime25519 ≤ value t then value t - prime25519 else value t) :
    fe t' = fe t := by
  rw [fe, fe, h]
  split
  · rw [Int.cast_sub, Int.cast_natCast, ZMod.natCast_self, sub_zero]
  · rfl

/-- The bytes are those of the residue: of `2 p + 37` at most, two subtractions
leave less than `p`. -/
theorem pack25519_spec {n : Gf} (hn : Carried n) :
    ∃ o, pack25519 n = some o ∧ LittleEndian.value o.val = (fe n).val := by
  obtain ⟨t₁, h₁, hd₁, hf₁⟩ := digits_of_carried hn
  obtain ⟨t₂, h₂, hd₂, hf₂⟩ := digits_of_carried hd₁.carried
  obtain ⟨t₃, h₃, hd₃, hf₃⟩ := digits_of_carried hd₂.carried
  obtain ⟨t₄, h₄, hd₄, hv₄⟩ := packTurn_spec hd₃
  obtain ⟨t₅, h₅, hd₅, hv₅⟩ := packTurn_spec hd₄
  refine ⟨⟨t₅.toList.flatMap limbBytes, length_bytes t₅⟩, ?_, ?_⟩
  · unfold pack25519
    simp only [h₁, h₂, h₃, h₄, h₅, Option.bind_eq_bind, Option.bind_some, Option.pure_def]
  · have hbytes := value_bytes hd₅
    have hbound : 0 ≤ value t₃ ∧ value t₃ < 2 ^ 256 := weigh_digits hd₃
    have hprime : (2 ^ 256 : Int) = 2 * prime25519 + 38 := by decide
    have hlt : LittleEndian.value (t₅.toList.flatMap limbBytes) < prime25519 := by
      zify
      rw [hbytes, hv₅, hv₄]
      split_ifs <;> omega
    have hfe : fe n = (LittleEndian.value (t₅.toList.flatMap limbBytes) : Nat) := by
      rw [← hf₁, ← hf₂, ← hf₃, ← fe_packTurn hv₄, ← fe_packTurn hv₅, fe, ← hbytes,
        Int.cast_natCast]
    rw [hfe, ZMod.val_cast_of_lt hlt]

/-! ## Reading -/

theorem toInt_i64 (b : UInt8) : (i64 b).toInt = b.toNat :=
  (toInt_ofNat (by rw [UInt8.toNat_toUInt64]; have := b.toNat_lt; omega)).trans
    (by rw [UInt8.toNat_toUInt64])

theorem toInt_i64_shiftLeft (b : UInt8) : (i64 b <<< 8).toInt = 2 ^ 8 * b.toNat := by
  have hb := b.toNat_lt
  have hshift : (b.toUInt64 <<< 8).toNat = 2 ^ 8 * b.toNat := by
    rw [UInt64.toNat_shiftLeft, UInt8.toNat_toUInt64, Nat.shiftLeft_eq, Nat.mul_comm]
    exact Nat.mod_eq_of_lt (by change 2 ^ 8 * b.toNat < 2 ^ 64; omega)
  have hword : i64 b <<< 8 = (b.toUInt64 <<< 8).toInt64 := rfl
  rw [hword, toInt_ofNat (by omega), hshift]
  rfl

/-- The words of a list of bytes. -/
theorem weigh_words : ∀ {n : Nat} {l : Bytes}, l.length = 2 * n →
    weigh (fun i : Fin n =>
      ((l.getD (2 * i) 0).toNat + 2 ^ 8 * (l.getD (2 * i + 1) 0).toNat : Int)) =
        LittleEndian.value l
  | 0, [], _ => rfl
  | n + 1, b :: c :: l, h => by
      have hlen : l.length = 2 * n := by
        rw [List.length_cons, List.length_cons] at h
        omega
      have htail : ∀ i : Fin n, (b :: c :: l).getD (2 * i.succ) 0 = l.getD (2 * i) 0 ∧
          (b :: c :: l).getD (2 * i.succ + 1) 0 = l.getD (2 * i + 1) 0 := fun i => ⟨rfl, rfl⟩
      rw [weigh_succ, LittleEndian.value_cons, LittleEndian.value_cons]
      simp only [htail, weigh_words hlen, Fin.val_zero, Nat.mul_zero, List.getD_cons_zero,
        List.getD_cons_succ]
      push_cast
      ring

theorem unpackStep_spec (n : Octets 32) :
    ∃ o, (List.finRange 16).foldlM (unpackStep n) zero = some o ∧ Digits o ∧
      value o = LittleEndian.value n.val := by
  have hterm : ∀ i : Fin 16, ∃ w,
      checkedAdd (i64 (n.val.getD (2 * i) 0)) (i64 (n.val.getD (2 * i + 1) 0) <<< 8) = some w ∧
        w.toInt = (n.val.getD (2 * i) 0).toNat + 2 ^ 8 * (n.val.getD (2 * i + 1) 0).toNat := by
    intro i
    have hlow := (n.val.getD (2 * i) 0).toNat_lt
    have hhigh := (n.val.getD (2 * i + 1) 0).toNat_lt
    exact checkedAdd_eq_some (by rw [toInt_i64, toInt_i64_shiftLeft]) (by omega) (by omega)
  obtain ⟨o, ho, hlimbs⟩ := foldlM_fill hterm zero
  refine ⟨o, ho, fun i => ?_, ?_⟩
  · have hlow := (n.val.getD (2 * i) 0).toNat_lt
    have hhigh := (n.val.getD (2 * i + 1) 0).toNat_lt
    simp only [hlimbs]
    omega
  · rw [value, hlimbs, weigh_words (n := 16) n.property]

/-- The top bit of the bytes is dropped. -/
theorem unpack25519_spec (n : Octets 32) :
    ∃ o, unpack25519 n = some o ∧ Carried o ∧
      fe o = (LittleEndian.value n.val % 2 ^ 255 : Nat) := by
  obtain ⟨o, ho, hdigits, hvalue⟩ := unpackStep_spec n
  have hlimbs : limbs (o.set 15 (o[15] &&& 0x7fff)) =
      Function.update (limbs o) 15 (limbs o 15 % 2 ^ 15) := by
    have hset := limbs_set o 15 (o[15] &&& 0x7fff)
    rwa [toInt_mask o[15] (n := 15) (by decide) (by decide)] at hset
  refine ⟨o.set 15 (o[15] &&& 0x7fff), ?_, Digits.carried fun i => ?_, ?_⟩
  · unfold unpack25519
    simp only [ho, Option.bind_eq_bind, Option.bind_some, Option.pure_def]
  · have hi := hdigits i
    rw [hlimbs]
    by_cases h : i = 15
    · rw [h, Function.update_self]
      omega
    · rw [Function.update_of_ne h]
      exact hi
  · obtain ⟨hlow, hlow'⟩ := weigh_digits (f := fun i : Fin 15 => limbs o i.castSucc)
      fun i => hdigits i.castSucc
    have hsplit : value o = weigh (fun i : Fin 15 => limbs o i.castSucc) +
        limbs o 15 * 2 ^ (16 * 15) := weigh_castSucc (limbs o)
    have hmod : value (o.set 15 (o[15] &&& 0x7fff)) =
        (LittleEndian.value n.val % 2 ^ 255 : Nat) := by
      rw [value, hlimbs, weigh_update]
      rw [value] at hvalue hsplit
      have hlast : ((15 : Fin 16) : Nat) = 15 := rfl
      rw [hlast]
      push_cast
      omega
    rw [fe, hmod, Int.cast_natCast]

end Gf

end EsphomeApi.Noise
