/-
EsphomeApi.Crypto.X25519Limbs — the limb arithmetic of Curve25519 computes in
the field of `2 ^ 255 - 19` elements, and no signed word overflows.

A pass of `car25519` hands a carry from limb to limb and from the last back to
the first, where `2 ^ 256` counts 38. `car_spec` describes one pass by the
carries that can occur, as a predicate on the limb and the carry into it; the
passes after a product (`carried_of_wide`) and before packing
(`digits_of_carried`) are instances of it. Sums and differences of carried
arrays may go into a product (`mul_spec`), and a product is carried again, so
the ladder never leaves these bounds.
-/
import EsphomeApi.Crypto.Curve25519
import EsphomeApi.Crypto.X25519
import EsphomeApi.Library.LittleEndian

namespace EsphomeApi.Noise

open Library Library.SignedWord

namespace Gf

/-- The number that an array stands for. -/
def value (o : Gf) : Int := weigh (limbs o)

/-- The limbs lie between two bounds. -/
def Within (lo hi : Int) (o : Gf) : Prop := ∀ i, lo ≤ limbs o i ∧ limbs o i ≤ hi

theorem Within.mono {lo hi lo' hi' : Int} {o : Gf} (h : Within lo hi o) (hlo : lo' ≤ lo)
    (hhi : hi ≤ hi') : Within lo' hi' o := fun i => ⟨hlo.trans (h i).1, (h i).2.trans hhi⟩

/-! ## A pass of `car25519` -/

theorem next_ne (i : Fin 16) : next i ≠ i := by
  revert i
  decide

theorem next_val {i : Fin 16} (hi : (i : Nat) < 15) : (next i : Nat) = i + 1 := by
  rw [next, if_pos (by rw [Fin.lt_def]; exact hi), Fin.val_add_one_of_lt]
  rw [Fin.lt_def]
  exact hi

/-- A carry from the last limb counts 38. -/
def factor (i : Fin 16) : Int := if (i : Nat) = 15 then 38 else 1

theorem factor_eq (i : Fin 16) : factor i = if i = 15 then 38 else 1 :=
  if_congr (Fin.ext_iff (b := 15)).symm rfl rfl

/-- One turn: limb `i` keeps its low 16 bits, the rest goes on. -/
theorem carStep_spec {o : Gf} {i : Fin 16}
    (hi : -2 ^ 61 ≤ limbs o i) (hi' : limbs o i ≤ 2 ^ 61)
    (hn : -2 ^ 61 ≤ limbs o (next i)) (hn' : limbs o (next i) ≤ 2 ^ 61) :
    ∃ o', carStep o i = some o' ∧
      limbs o' = Function.update
        (Function.update (limbs o) (next i) (limbs o (next i) + limbs o i / 2 ^ 16 * factor i))
        i (limbs o i % 2 ^ 16) := by
  have hne := next_ne i
  obtain ⟨oi, hoi, voi⟩ := checkedAdd_eq_some (a := o[i]) (b := 65536)
    (n := limbs o i + 2 ^ 16) rfl (by omega) (by omega)
  have hget : (o.set i oi)[i] = oi := Vector.getElem_set_self _
  have vc : (oi >>> 16).toInt = limbs o i / 2 ^ 16 + 1 := by
    rw [toInt_shiftRight oi (n := 16) (by decide), voi]
    omega
  obtain ⟨low, hlow, vlow⟩ := checkedSub_eq_some (a := oi >>> 16) (b := 1)
    (n := limbs o i / 2 ^ 16) (by rw [vc, show (1 : Int64).toInt = 1 from rfl]; omega)
    (by omega) (by omega)
  obtain ⟨top, htop, vtop⟩ := checkedMul_eq_some (a := 37) (b := low)
    (n := 37 * (limbs o i / 2 ^ 16)) (by rw [vlow]; rfl) (by omega) (by omega)
  have hflag : (if i = 15 then 1 else 0 : Int64).toInt = if i = 15 then 1 else 0 := by
    split <;> rfl
  obtain ⟨top', htop', vtop'⟩ := checkedMul_eq_some (a := top) (b := if i = 15 then 1 else 0)
    (n := limbs o i / 2 ^ 16 * (factor i - 1))
    (by rw [vtop, hflag, factor_eq]; split <;> omega)
    (by rw [factor_eq]; split <;> omega) (by rw [factor_eq]; split <;> omega)
  obtain ⟨carry, hcarry, vcarry⟩ := checkedAdd_eq_some (a := low) (b := top')
    (n := limbs o i / 2 ^ 16 * factor i) (by rw [vlow, vtop']; ring)
    (by rw [factor_eq]; split <;> omega) (by rw [factor_eq]; split <;> omega)
  have hgetNext : ((o.set i oi)[next i]).toInt = limbs o (next i) := by
    have h := congrFun (limbs_set o i oi) (next i)
    rwa [Function.update_of_ne hne] at h
  obtain ⟨on, hon, von⟩ := checkedAdd_eq_some (a := (o.set i oi)[next i]) (b := carry)
    (n := limbs o (next i) + limbs o i / 2 ^ 16 * factor i) (by rw [hgetNext, vcarry])
    (by rw [factor_eq]; split <;> omega) (by rw [factor_eq]; split <;> omega)
  obtain ⟨down, hdown, vdown⟩ := checkedMul_eq_some (a := oi >>> 16) (b := 65536)
    (n := (limbs o i / 2 ^ 16 + 1) * 2 ^ 16) (by rw [vc]; rfl) (by omega) (by omega)
  have hgetSelf : (((o.set i oi).set (next i) on)[i]).toInt = limbs o i + 2 ^ 16 := by
    have h := congrFun (limbs_set (o.set i oi) (next i) on) i
    rw [Function.update_of_ne hne.symm] at h
    have h' := congrFun (limbs_set o i oi) i
    rw [Function.update_self] at h'
    exact h.trans (h'.trans voi)
  obtain ⟨oi', hoi', voi'⟩ := checkedSub_eq_some
    (a := ((o.set i oi).set (next i) on)[i]) (b := down) (n := limbs o i % 2 ^ 16)
    (by rw [hgetSelf, vdown]; omega) (by omega) (by omega)
  refine ⟨((o.set i oi).set (next i) on).set i oi', ?_, ?_⟩
  · unfold carStep
    simp only [hoi, hget, hlow, htop, htop', hcarry, hon, hdown, hoi', Option.bind_eq_bind,
      Option.bind_some, Option.pure_def]
  · rw [limbs_set, limbs_set, limbs_set, voi', von]
    rw [Function.update_comm hne, Function.update_idem, Function.update_comm hne.symm]

/-- One turn moves a carry: from the last limb, where `2 ^ 256` becomes 38. -/
theorem weigh_carStep (f : Fin 16 → Int) (i : Fin 16) :
    weigh (Function.update (Function.update f (next i) (f (next i) + f i / 2 ^ 16 * factor i)) i
        (f i % 2 ^ 16)) =
      weigh f - if i = 15 then f i / 2 ^ 16 * (2 ^ 256 - 38) else 0 := by
  have hmod : f i % 2 ^ 16 = f i - 2 ^ 16 * (f i / 2 ^ 16) := by
    have := Int.mul_ediv_add_emod (f i) (2 ^ 16)
    omega
  rw [weigh_update, weigh_update, Function.update_of_ne (next_ne i).symm, hmod]
  by_cases hlast : i = 15
  · subst hlast
    rw [if_pos rfl, factor_eq, if_pos rfl, show next 15 = 0 from rfl]
    norm_num
    ring
  · have hlt : (i : Nat) < 15 := by
      have := i.isLt
      have : (i : Nat) ≠ 15 := fun h => hlast (Fin.ext h)
      omega
    rw [if_neg hlast, factor_eq, if_neg hlast, next_val hlt, Nat.mul_succ, pow_add]
    ring

/-- An array in the middle of a pass over `o`, with the carry `c` into limb `i`
already added. -/
structure Passing (o : Gf) (C : Nat → Int → Prop) (i : Nat) (s : Gf) (c : Int) : Prop where
  allowed : C i c
  value : value s = o.value - if i = 16 then c * (2 ^ 256 - 38) else 0
  first : 0 < i → limbs s 0 = limbs o 0 % 2 ^ 16 + if i = 16 then 38 * c else 0
  done : ∀ j : Fin 16, j ≠ 0 → (j : Nat) < i → 0 ≤ limbs s j ∧ limbs s j < 2 ^ 16
  here : ∀ j : Fin 16, (j : Nat) = i → limbs s j = limbs o j + c
  later : ∀ j : Fin 16, i < j → limbs s j = limbs o j

theorem Passing.step {o : Gf} (ho : Within (-2 ^ 60) (2 ^ 60) o) {C : Nat → Int → Prop}
    (hzero : ∀ c, C 0 c ↔ c = 0) (hC : ∀ i c, C i c → -2 ^ 50 ≤ c ∧ c ≤ 2 ^ 50)
    (hnext : ∀ (i : Fin 16) (c : Int), C i c → C (i + 1) ((limbs o i + c) / 2 ^ 16))
    (i : Fin 16) {s : Gf} {c : Int} (h : Passing o C i s c) :
    ∃ s', carStep s i = some s' ∧ Passing o C (i + 1) s' ((limbs o i + c) / 2 ^ 16) := by
  obtain ⟨hallowed, hvalue, hfirst, hdone, hhere, hlater⟩ := h
  have hi := i.isLt
  have hself := hhere i rfl
  have hbound := hC i c hallowed
  have hoi := ho i
  have hnextBound : -2 ^ 61 ≤ limbs s (next i) ∧ limbs s (next i) ≤ 2 ^ 61 := by
    by_cases hlast : (i : Nat) < 15
    · have hon := ho (next i)
      rw [hlater (next i) (by rw [next_val hlast]; omega)]
      omega
    · obtain rfl : i = 15 := Fin.ext (by omega)
      rw [show next 15 = 0 from rfl, hfirst (by decide), if_neg (by decide)]
      omega
  obtain ⟨s', hs', hlimbs⟩ := carStep_spec (o := s) (i := i) (by omega) (by omega)
    hnextBound.1 hnextBound.2
  have hsame : ∀ j, j ≠ i → j ≠ next i → limbs s' j = limbs s j := by
    intro j hji hjn
    rw [hlimbs, Function.update_of_ne hji, Function.update_of_ne hjn]
  have hat : limbs s' i = (limbs o i + c) % 2 ^ 16 := by
    rw [hlimbs, Function.update_self, hself]
  have hatNext : limbs s' (next i) =
      limbs s (next i) + (limbs o i + c) / 2 ^ 16 * factor i := by
    rw [hlimbs, Function.update_of_ne (next_ne i), Function.update_self, hself]
  refine ⟨s', hs', hnext i c hallowed, ?_, ?_, ?_, ?_, ?_⟩
  · have hweigh : s'.value = _ := congrArg weigh hlimbs
    rw [weigh_carStep, hself] at hweigh
    have hprev : weigh (limbs s) = o.value := by
      have h := hvalue
      rw [if_neg (by omega), sub_zero] at h
      exact h
    rw [hweigh, hprev]
    by_cases hlast : i = 15
    · subst hlast
      rfl
    · have hne : ¬(i : Nat) + 1 = 16 := fun h => hlast (Fin.ext (by omega))
      rw [if_neg hlast, if_neg hne]
  · intro _
    by_cases hstart : i = 0
    · subst hstart
      obtain rfl := (hzero c).mp hallowed
      rw [hat, Int.add_zero, if_neg (by decide), Int.add_zero]
    · have hpos : 0 < (i : Nat) := Nat.pos_of_ne_zero fun h => hstart (Fin.ext h)
      have hold := hfirst hpos
      rw [if_neg (by omega), Int.add_zero] at hold
      by_cases hlast : (i : Nat) < 15
      · have hne0 : (0 : Fin 16) ≠ next i := fun h => by
          have hval := congrArg Fin.val h
          rw [next_val hlast] at hval
          exact absurd hval (by simp)
        rw [hsame 0 (Ne.symm hstart) hne0, hold, if_neg (by omega), Int.add_zero]
      · obtain rfl : i = 15 := Fin.ext (by omega)
        have hsum : limbs s' 0 = limbs s 0 + (limbs o 15 + c) / 2 ^ 16 * 38 := hatNext
        rw [hsum, hold, if_pos (by decide), mul_comm 38]
  · intro j hj hji
    by_cases hsame' : j = i
    · subst hsame'
      rw [hat]
      omega
    · have hlt : (j : Nat) < i := by
        have : (j : Nat) ≠ i := fun h => hsame' (Fin.ext h)
        omega
      have hnej : j ≠ next i := by
        intro h
        by_cases hlast : (i : Nat) < 15
        · have hval := congrArg Fin.val h
          rw [next_val hlast] at hval
          omega
        · obtain rfl : i = 15 := Fin.ext (by omega)
          exact hj h
      rw [hsame j hsame' hnej]
      exact hdone j hj hlt
  · intro j hj
    have hlast : (i : Nat) < 15 := by omega
    obtain rfl : j = next i := Fin.ext (by rw [next_val hlast, hj])
    have hfactor : factor i = 1 := (factor_eq i).trans <| if_neg fun h => by
      have := congrArg Fin.val h
      simp at this
      omega
    rw [hatNext, hlater _ (by rw [next_val hlast]; omega), hfactor, mul_one]
  · intro j hj
    have hlast : (i : Nat) < 15 := by omega
    have hnej : j ≠ next i := fun h => by
      have := congrArg Fin.val h
      rw [next_val hlast] at this
      omega
    have hnei : j ≠ i := fun h => by
      have := congrArg Fin.val h
      omega
    rw [hsame j hnei hnej]
    exact hlater j (by omega)

/-- A pass hands a carry on that satisfies `C` wherever it goes, `C i` saying
what may come into limb `i`. -/
theorem car_spec {o : Gf} (ho : Within (-2 ^ 60) (2 ^ 60) o) (C : Nat → Int → Prop)
    (hzero : ∀ c, C 0 c ↔ c = 0) (hC : ∀ i c, C i c → -2 ^ 50 ≤ c ∧ c ≤ 2 ^ 50)
    (hnext : ∀ (i : Fin 16) (c : Int), C i c → C (i + 1) ((limbs o i + c) / 2 ^ 16)) :
    ∃ o' c, car25519 o = some o' ∧ C 16 c ∧ value o' = value o - c * (2 ^ 256 - 38) ∧
      limbs o' 0 = limbs o 0 % 2 ^ 16 + 38 * c ∧
      ∀ i, i ≠ 0 → 0 ≤ limbs o' i ∧ limbs o' i < 2 ^ 16 := by
  have hstart : Passing o C 0 o 0 := by
    refine ⟨(hzero 0).mpr rfl, ?_, ?_, ?_, ?_, ?_⟩
    · rw [if_neg (by decide), sub_zero]
    · exact fun h => absurd h (Nat.lt_irrefl 0)
    · exact fun j _ h => absurd h (Nat.not_lt_zero _)
    · exact fun j _ => (add_zero _).symm
    · exact fun j _ => rfl
  have hturn : ∀ (i : Fin 16) (s : Gf), (∃ c, Passing o C i s c) →
      ∃ s', carStep s i = some s' ∧ ∃ c, Passing o C (i + 1) s' c := by
    rintro i s ⟨c, h⟩
    obtain ⟨s', hs', h'⟩ := h.step ho hzero hC hnext i
    exact ⟨s', hs', _, h'⟩
  obtain ⟨o', ho', c, hend⟩ := foldlM_finRange (fun i s => ∃ c, Passing o C i s c) hturn
    ⟨0, hstart⟩
  refine ⟨o', c, ho', hend.allowed, ?_, ?_, fun i hi => hend.done i hi i.isLt⟩
  · rw [hend.value, if_pos rfl]
  · rw [hend.first (by decide), if_pos rfl]

/-! ## The field -/

/-- The element of the field that an array stands for. -/
def fe (o : Gf) : ZMod prime25519 := o.value

/-- `2 ^ 256` counts 38. -/
theorem two_pow_256 : ((2 ^ 256 - 38 : Int) : ZMod prime25519) = 0 :=
  (ZMod.intCast_zmod_eq_zero_iff_dvd _ _).mpr ⟨2, by decide⟩

theorem fe_of_value {o : Gf} {v c : Int} (h : value o = v - c * (2 ^ 256 - 38)) : fe o = v := by
  rw [fe, h, Int.cast_sub, Int.cast_mul, two_pow_256, mul_zero, sub_zero]

/-- An array after two passes. -/
structure Carried (o : Gf) : Prop where
  first : -38 ≤ limbs o 0 ∧ limbs o 0 < 2 ^ 16 + 38
  rest : ∀ i, i ≠ 0 → 0 ≤ limbs o i ∧ limbs o i < 2 ^ 16

theorem Carried.within {o : Gf} (h : Carried o) : Within (-2 ^ 17) (2 ^ 17) o := by
  intro i
  by_cases hi : i = 0
  · subst hi
    have := h.first
    omega
  · have := h.rest i hi
    omega

/-- Two passes carry whatever a product leaves. -/
theorem carried_of_wide {o : Gf} (ho : Within (-2 ^ 50) (2 ^ 50) o) :
    ∃ o₁ o₂, car25519 o = some o₁ ∧ car25519 o₁ = some o₂ ∧ Carried o₂ ∧ fe o₂ = fe o := by
  obtain ⟨o₁, c, ho₁, hc, hvalue, hfirst, hrest⟩ := car_spec (ho.mono (by decide) (by decide))
    (fun i c => (i = 0 → c = 0) ∧ -2 ^ 36 ≤ c ∧ c ≤ 2 ^ 36)
    (fun c => by constructor <;> intro h <;> omega) (fun i c h => by omega)
    (fun i c h => by have := ho i; omega)
  have hwide : Within (-2 ^ 60) (2 ^ 60) o₁ := by
    intro i
    by_cases hi : i = 0
    · subst hi
      omega
    · have := hrest i hi
      omega
  obtain ⟨o₂, d, ho₂, hd, hvalue', hfirst', hrest'⟩ := car_spec hwide
    (fun i c => (i = 0 → c = 0) ∧ -2 ^ 27 ≤ c ∧ c ≤ 2 ^ 27 ∧
      (2 ≤ i → -2 ^ 12 ≤ c ∧ c ≤ 2 ^ 12) ∧ (3 ≤ i → -1 ≤ c ∧ c ≤ 1))
    (fun c => by constructor <;> intro h <;> omega) (fun i c h => by omega)
    (fun i c h => by
      by_cases hi : i = 0
      · subst hi
        have := h.1 rfl
        simp only [Fin.val_zero]
        omega
      · have := hrest i hi
        have : (i : Nat) ≠ 0 := fun h => hi (Fin.ext h)
        omega)
  refine ⟨o₁, o₂, ho₁, ho₂, ⟨by omega, hrest'⟩, ?_⟩
  exact (fe_of_value hvalue').trans (fe_of_value hvalue)

/-- An array of 16-bit digits. -/
def Digits (o : Gf) : Prop := ∀ i, 0 ≤ limbs o i ∧ limbs o i < 2 ^ 16

/-- One more pass leaves digits: a carry out of the top has gone through every
limb, so the first one was out of its range and is far from its end now. -/
theorem digits_of_carried {o : Gf} (ho : Carried o) :
    ∃ o', car25519 o = some o' ∧ Digits o' ∧ fe o' = fe o := by
  obtain ⟨o', c, ho', hc, hvalue, hfirst, hrest⟩ :=
    car_spec (ho.within.mono (by decide) (by decide))
    (fun i c => (i = 0 → c = 0) ∧ -1 ≤ c ∧ c ≤ 1 ∧
      (1 ≤ i → (c = 1 → 2 ^ 16 ≤ limbs o 0) ∧ (c = -1 → limbs o 0 < 0)))
    (fun c => by constructor <;> intro h <;> omega) (fun i c h => by omega)
    (fun i c h => by
      by_cases hi : i = 0
      · subst hi
        have := h.1 rfl
        have := ho.first
        simp only [Fin.val_zero]
        omega
      · have := ho.rest i hi
        have : (i : Nat) ≠ 0 := fun h => hi (Fin.ext h)
        omega)
  refine ⟨o', ho', fun i => ?_, fe_of_value hvalue⟩
  by_cases hi : i = 0
  · subst hi
    have := ho.first
    omega
  · exact hrest i hi

/-! ## Sums, differences and products -/

/-- A carried sum may go into a product. -/
theorem add_spec {a b : Gf} (ha : Carried a) (hb : Carried b) :
    ∃ o, add a b = some o ∧ Within (-2 ^ 18) (2 ^ 18) o ∧ fe o = fe a + fe b := by
  have hterm : ∀ i : Fin 16, ∃ w, checkedAdd a[i] b[i] = some w ∧
      w.toInt = limbs a i + limbs b i := by
    intro i
    have hai := ha.within i
    have hbi := hb.within i
    exact checkedAdd_eq_some rfl (by omega) (by omega)
  obtain ⟨o, ho, hlimbs⟩ := foldlM_fill hterm zero
  refine ⟨o, ho, fun i => ?_, ?_⟩
  · have hai := ha.within i
    have hbi := hb.within i
    simp only [hlimbs]
    omega
  · rw [fe, value, hlimbs, weigh_add, Int.cast_add]
    rfl

theorem sub_spec {a b : Gf} (ha : Carried a) (hb : Carried b) :
    ∃ o, sub a b = some o ∧ Within (-2 ^ 18) (2 ^ 18) o ∧ fe o = fe a - fe b := by
  have hterm : ∀ i : Fin 16, ∃ w, checkedSub a[i] b[i] = some w ∧
      w.toInt = limbs a i - limbs b i := by
    intro i
    have hai := ha.within i
    have hbi := hb.within i
    exact checkedSub_eq_some rfl (by omega) (by omega)
  obtain ⟨o, ho, hlimbs⟩ := foldlM_fill hterm zero
  refine ⟨o, ho, fun i => ?_, ?_⟩
  · have hai := ha.within i
    have hbi := hb.within i
    simp only [hlimbs]
    omega
  · rw [fe, value, hlimbs, weigh_sub, Int.cast_sub]
    rfl

/-- An array with `n` products added up in it. -/
structure Products (v : Int) (n : Nat) (t : Vector Int64 31) : Prop where
  value : weigh (limbs t) = v
  bound : ∀ k, -(n * 2 ^ 36) ≤ limbs t k ∧ limbs t k ≤ n * 2 ^ 36

theorem bound_mul {x y : Int} (hx : -2 ^ 18 ≤ x ∧ x ≤ 2 ^ 18) (hy : -2 ^ 18 ≤ y ∧ y ≤ 2 ^ 18) :
    -2 ^ 36 ≤ x * y ∧ x * y ≤ 2 ^ 36 := by
  have habs : |x * y| ≤ 2 ^ 18 * 2 ^ 18 := by
    rw [abs_mul]
    exact mul_le_mul (abs_le.mpr hx) (abs_le.mpr hy) (abs_nonneg y) (by decide)
  exact abs_le.mp habs

theorem Products.step {a b : Gf} (ha : Within (-2 ^ 18) (2 ^ 18) a)
    (hb : Within (-2 ^ 18) (2 ^ 18) b) {v : Int} {n : Nat} (hn : n < 256)
    {t : Vector Int64 31} (h : Products v n t) (i j : Fin 16) :
    ∃ t', mulStep a b i t j = some t' ∧
      Products (v + limbs a i * 2 ^ (16 * (i : Nat)) * (limbs b j * 2 ^ (16 * (j : Nat))))
        (n + 1) t' := by
  have hprod := bound_mul (ha i) (hb j)
  have hk := h.bound ⟨i + j, by omega⟩
  obtain ⟨p, hp, vp⟩ := checkedMul_eq_some (a := a[i]) (b := b[j])
    (n := limbs a i * limbs b j) rfl (by omega) (by omega)
  obtain ⟨s, hs, vs⟩ := checkedAdd_eq_some (a := t[(⟨i + j, by omega⟩ : Fin 31)]) (b := p)
    (n := limbs t ⟨i + j, by omega⟩ + limbs a i * limbs b j) (by rw [vp]; rfl)
    (by omega) (by omega)
  refine ⟨t.set (i + j) s, ?_, ?_, fun k => ?_⟩
  · unfold mulStep
    simp only [hp, hs, Option.bind_eq_bind, Option.bind_some, Option.pure_def]
  · rw [limbs_set t ⟨i + j, by omega⟩, weigh_update, h.value, vs, Nat.mul_add, Int.pow_add]
    ring
  · have hold := h.bound k
    rw [limbs_set t ⟨i + j, by omega⟩]
    by_cases heq : k = ⟨i + j, by omega⟩
    · rw [heq, Function.update_self, vs]
      omega
    · rw [Function.update_of_ne heq]
      omega

/-- A row of the products. -/
theorem Products.row {a b : Gf} (ha : Within (-2 ^ 18) (2 ^ 18) a)
    (hb : Within (-2 ^ 18) (2 ^ 18) b) {v : Int} {n : Nat} (hn : n + 16 ≤ 256)
    {t : Vector Int64 31} (h : Products v n t) (i : Fin 16) :
    ∃ t', (List.finRange 16).foldlM (mulStep a b i) t = some t' ∧
      Products (v + limbs a i * 2 ^ (16 * (i : Nat)) * weigh (limbs b)) (n + 16) t' := by
  have hstep : ∀ (j : Fin 16) (t : Vector Int64 31),
      Products (v + limbs a i * 2 ^ (16 * (i : Nat)) * weigh (below (limbs b) j)) (n + j) t →
        ∃ t', mulStep a b i t j = some t' ∧
          Products (v + limbs a i * 2 ^ (16 * (i : Nat)) * weigh (below (limbs b) (j + 1)))
            (n + (j + 1)) t' := by
    intro j t ht
    rw [weigh_below_succ, Int.mul_add, ← Int.add_assoc]
    exact ht.step ha hb (by omega) i j
  have hrow := foldlM_finRange
    (fun j t => Products (v + limbs a i * 2 ^ (16 * (i : Nat)) * weigh (below (limbs b) j))
      (n + j) t) hstep (s := t) (by rwa [weigh_below_zero, Int.mul_zero, Int.add_zero])
  rwa [below_all] at hrow

/-- All products, in an array twice as long. -/
theorem products_spec {a b : Gf} (ha : Within (-2 ^ 18) (2 ^ 18) a)
    (hb : Within (-2 ^ 18) (2 ^ 18) b) :
    ∃ t, (List.finRange 16).foldlM
        (fun t i => (List.finRange 16).foldlM (mulStep a b i) t) (Vector.replicate 31 0) =
          some t ∧ Products (a.value * b.value) 256 t := by
  have hstep : ∀ (i : Fin 16) (t : Vector Int64 31),
      Products (weigh (below (limbs a) i) * b.value) (16 * i) t →
        ∃ t', (List.finRange 16).foldlM (mulStep a b i) t = some t' ∧
          Products (weigh (below (limbs a) (i + 1)) * b.value) (16 * (i + 1)) t' := by
    intro i t ht
    rw [weigh_below_succ, Int.add_mul]
    exact ht.row ha hb (by omega) i
  have hzero : limbs (Vector.replicate 31 (0 : Int64)) = fun _ => 0 := by
    funext k
    simp [limbs]
  have hstart : Products (weigh (below (limbs a) 0) * b.value) (16 * 0)
      (Vector.replicate 31 0) := by
    constructor
    · rw [weigh_below_zero, Int.zero_mul, hzero, weigh]
      exact Finset.sum_eq_zero fun k _ => Int.zero_mul _
    · intro k
      rw [hzero]
      exact ⟨Int.le_refl 0, Int.le_refl 0⟩
  have hall := foldlM_finRange
    (fun i t => Products (weigh (below (limbs a) i) * b.value) (16 * i) t) hstep hstart
  rwa [below_all] at hall

/-- A lower limb of a product. -/
def lower (k : Fin 15) : Fin 31 := ⟨k, by omega⟩

/-- The array of a product before the turn `i` of the fold. -/
structure Folding (t : Vector Int64 31) (i : Nat) (s : Vector Int64 31) : Prop where
  rest : ∀ k : Fin 31, i ≤ k → limbs s k = limbs t k
  done : ∀ k : Fin 15, (k : Nat) < i →
    limbs s (lower k) = limbs t (lower k) + 38 * limbs t (upper k)

theorem Folding.step {t : Vector Int64 31} (ht : ∀ k, -2 ^ 44 ≤ limbs t k ∧ limbs t k ≤ 2 ^ 44)
    (i : Fin 15) (s : Vector Int64 31) (h : Folding t i s) :
    ∃ s', mulFold s i = some s' ∧ Folding t (i + 1) s' := by
  have hlow := ht (lower i)
  have hhigh := ht (upper i)
  have hread : s[upper i].toInt = limbs t (upper i) := h.rest (upper i) (Nat.le_add_right _ _)
  have hread' : s[lower i].toInt = limbs t (lower i) := h.rest (lower i) (Nat.le_refl _)
  obtain ⟨p, hp, vp⟩ := checkedMul_eq_some (a := 38) (b := s[upper i])
    (n := 38 * limbs t (upper i)) (by rw [hread]; rfl) (by omega) (by omega)
  obtain ⟨w, hw, vw⟩ := checkedAdd_eq_some (a := s[lower i]) (b := p)
    (n := limbs t (lower i) + 38 * limbs t (upper i)) (by rw [hread', vp]) (by omega) (by omega)
  have hset : limbs (s.set i w) = Function.update (limbs s) (lower i) w.toInt :=
    limbs_set s (lower i) w
  refine ⟨s.set i w, ?_, fun k hk => ?_, fun k hk => ?_⟩
  · have hbind : (checkedMul 38 s[upper i]).bind (fun p => (checkedAdd s[lower i] p).bind
        fun w => some (s.set i w)) = some (s.set i w) := by
      simp only [hp, hw, Option.bind_some]
    exact hbind
  · have hne : k ≠ lower i := by
      rintro rfl
      exact Nat.not_succ_le_self _ hk
    rw [hset, Function.update_of_ne hne]
    exact h.rest k (by omega)
  · rw [hset]
    by_cases heq : k = i
    · subst heq
      rw [Function.update_self, vw]
    · have hval : (k : Nat) ≠ i := fun h => heq (Fin.ext h)
      have hne : lower k ≠ lower i := fun h => hval (Fin.mk.inj h)
      rw [Function.update_of_ne hne]
      exact h.done k (by omega)

/-- The fold brings the upper limbs down, 38 times. -/
theorem mulFold_spec {t : Vector Int64 31}
    (ht : ∀ k, -2 ^ 44 ≤ limbs t k ∧ limbs t k ≤ 2 ^ 44) :
    ∃ s, (List.finRange 15).foldlM mulFold t = some s ∧ Folding t 15 s :=
  foldlM_finRange (Folding t) (Folding.step ht)
    ⟨fun _ _ => rfl, fun _ hk => absurd hk (Nat.not_lt_zero _)⟩

theorem limbs_half (t : Vector Int64 31) (k : Fin 16) :
    limbs (half t) k = limbs t (k.castLE (by decide)) := by
  simp [limbs, half]

theorem Folding.half_within {t s : Vector Int64 31}
    (ht : ∀ k, -2 ^ 44 ≤ limbs t k ∧ limbs t k ≤ 2 ^ 44) (h : Folding t 15 s) :
    Within (-2 ^ 50) (2 ^ 50) (half s) := by
  intro k
  rw [limbs_half]
  by_cases hk : (k : Nat) < 15
  · have hsum := h.done ⟨k, hk⟩ hk
    have hlow := ht (lower ⟨k, hk⟩)
    have hhigh := ht (upper ⟨k, hk⟩)
    rw [show k.castLE (by decide) = lower ⟨k, hk⟩ from rfl]
    omega
  · have hlast := h.rest (k.castLE (by decide)) (by rw [Fin.val_castLE]; omega)
    have hbound := ht (k.castLE (by decide))
    omega

theorem value_half (s : Vector Int64 31) :
    value (half s) = weigh (fun k => limbs s (lower k)) + limbs s 15 * 2 ^ (16 * 15) := by
  have hlow : (fun k : Fin 15 => limbs (half s) k.castSucc) = fun k => limbs s (lower k) :=
    funext fun k => limbs_half s k.castSucc
  have hlast : limbs (half s) (Fin.last 15) = limbs s 15 := by
    rw [limbs_half]
    rfl
  rw [value, weigh_castSucc, hlow, hlast]

theorem weigh_limbs_31 (t : Vector Int64 31) :
    weigh (limbs t) = value (half t) + weigh (fun k => limbs t (upper k)) * 2 ^ 256 := by
  have hlow : (fun k : Fin 16 => limbs t (Fin.castAdd 15 k)) = limbs (half t) :=
    funext fun k => (limbs_half t k).symm
  have hhigh : (fun k : Fin 15 => limbs t (Fin.natAdd 16 k)) = fun k => limbs t (upper k) :=
    funext fun k => congrArg (limbs t) (Fin.ext (Nat.add_comm 16 k))
  have hsplit := weigh_split (m := 16) (n := 15) (limbs t)
  rw [hlow, hhigh] at hsplit
  exact hsplit

/-- What is folded down was worth `2 ^ 256`. -/
theorem Folding.value_half {t s : Vector Int64 31} (h : Folding t 15 s) :
    value (half s) = weigh (limbs t) -
      weigh (fun k => limbs t (upper k)) * (2 ^ 256 - 38) := by
  have hsum : weigh (fun k => limbs s (lower k)) =
      weigh (fun k => limbs t (lower k)) + 38 * weigh (fun k => limbs t (upper k)) := by
    have hterms : (fun k => limbs s (lower k)) =
        fun k => limbs t (lower k) + 38 * limbs t (upper k) :=
      funext fun k => h.done k k.isLt
    rw [hterms, weigh_add, weigh_smul]
  rw [weigh_limbs_31, Gf.value_half, Gf.value_half, hsum, h.rest 15 (by decide)]
  ring

/-- A product is carried. -/
theorem mul_spec {a b : Gf} (ha : Within (-2 ^ 18) (2 ^ 18) a)
    (hb : Within (-2 ^ 18) (2 ^ 18) b) :
    ∃ o, mul a b = some o ∧ Carried o ∧ fe o = fe a * fe b := by
  obtain ⟨t, ht, hvalue, hbound⟩ := products_spec ha hb
  have hwide : ∀ k, -2 ^ 44 ≤ limbs t k ∧ limbs t k ≤ 2 ^ 44 := fun k => by
    have := hbound k
    omega
  obtain ⟨s, hs, hfold⟩ := mulFold_spec hwide
  obtain ⟨o₁, o₂, ho₁, ho₂, hcarried, hfe⟩ := carried_of_wide (hfold.half_within hwide)
  refine ⟨o₂, ?_, hcarried, ?_⟩
  · unfold mul
    simp only [ht, hs, Option.bind_eq_bind, Option.bind_some]
    rw [ho₁, Option.bind_some, ho₂]
  · rw [hfe, fe_of_value hfold.value_half, hvalue, Int.cast_mul]
    rfl

theorem sqr_spec {a : Gf} (ha : Within (-2 ^ 18) (2 ^ 18) a) :
    ∃ o, sqr a = some o ∧ Carried o ∧ fe o = fe a ^ 2 := by
  rw [pow_two]
  exact mul_spec ha ha

/-! ## The inverse -/

/-- The exponent after the turns `l`. -/
def exponent (e : Nat) (l : List Nat) : Nat :=
  l.foldl (fun e a => 2 * e + if a ≠ 2 ∧ a ≠ 4 then 1 else 0) e

/-- The loop raises to the power `p - 2`. -/
theorem exponent_turns : exponent 1 (List.range 254).reverse = prime25519 - 2 := by
  decide +kernel

theorem inv25519_turns {i : Gf} (hi : Carried i) : ∀ (l : List Nat) {c : Gf} {e : Nat},
    Carried c → fe c = fe i ^ e →
      ∃ o, l.foldlM (fun c a => do
          let c ← sqr c
          if a ≠ 2 ∧ a ≠ 4 then mul c i else return c) c = some o ∧
        Carried o ∧ fe o = fe i ^ exponent e l
  | [], c, _, hc, he => ⟨c, rfl, hc, he⟩
  | a :: l, c, e, hc, he => by
      obtain ⟨d, hd, hcd, hfd⟩ := sqr_spec (hc.within.mono (by decide) (by decide))
      rw [List.foldlM_cons]
      simp only [hd, Option.bind_eq_bind, Option.bind_some]
      by_cases ha : a ≠ 2 ∧ a ≠ 4
      · obtain ⟨m, hm, hcm, hfm⟩ := mul_spec (hcd.within.mono (by decide) (by decide))
          (hi.within.mono (by decide) (by decide))
        have hpow : fe m = fe i ^ (2 * e + 1) := by
          rw [hfm, hfd, he]
          ring
        obtain ⟨o, ho, hco, hfo⟩ := inv25519_turns hi l hcm hpow
        refine ⟨o, ?_, hco, ?_⟩
        · rw [if_pos ha, hm, Option.bind_some]
          exact ho
        · rw [hfo, exponent, exponent, List.foldl_cons, if_pos ha]
      · have hpow : fe d = fe i ^ (2 * e) := by
          rw [hfd, he]
          ring
        obtain ⟨o, ho, hco, hfo⟩ := inv25519_turns hi l hcd hpow
        refine ⟨o, ?_, hco, ?_⟩
        · rw [if_neg ha, Option.pure_def, Option.bind_some]
          exact ho
        · rw [hfo, exponent, exponent, List.foldl_cons, if_neg ha, Nat.add_zero]

theorem inv25519_spec {i : Gf} (hi : Carried i) :
    ∃ o, inv25519 i = some o ∧ Carried o ∧ fe o = fe i ^ (prime25519 - 2) := by
  have h := inv25519_turns hi (List.range 254).reverse hi (pow_one _).symm
  rw [exponent_turns] at h
  exact h

end Gf

end EsphomeApi.Noise
