/-
EsphomeApi.Library.Strtol — `strtol` and its family, over the bytes of a C
string, with a `long` of 64 bits.

`scan` is the part they share: white space, a sign, `0x` where the base is 16
and a digit follows, and digits as far as there are any. What it finds is an
integer without a bound; the functions of the family differ in what they make of
an integer that does not fit. The end pointer is the rest of the string, which
is the whole string if there are no digits.

`IsDecimal` and `IsHex` say what a text denotes, without scanning it.
`scan_ten_iff` and `scan_sixteen_iff` relate the two where `scan` comes to the
end of the text.
-/
import Mathlib.Data.Nat.Digits.Defs
import Mathlib.Data.List.TakeWhile

namespace EsphomeApi.Library

/-! ## Characters -/

/-- `isspace`, in the C locale. -/
def isSpace (c : UInt8) : Bool := c.toNat = 32 ∨ 9 ≤ c.toNat ∧ c.toNat ≤ 13

/-- The value of a digit; no base has digits of a value above 35. -/
def digitValue (c : UInt8) : Nat :=
  if 48 ≤ c.toNat ∧ c.toNat ≤ 57 then c.toNat - 48
  else if 97 ≤ c.toNat ∧ c.toNat ≤ 122 then c.toNat - 87
  else if 65 ≤ c.toNat ∧ c.toNat ≤ 90 then c.toNat - 55
  else 36

def isDigit (base : Nat) (c : UInt8) : Bool := digitValue c < base

/-- The number that digits denote, the first being the highest. -/
def digitsValue (base : Nat) (digits : List UInt8) : Nat :=
  Nat.ofDigits base (digits.reverse.map digitValue)

/-- The character `+`. -/
def plus : UInt8 := 43

/-- The character `-`. -/
def minus : UInt8 := 45

/-! ## Scanning -/

def skipSign (s : List UInt8) : List UInt8 :=
  if s.head? = some plus ∨ s.head? = some minus then s.tail else s

/-- `0x` is only a prefix where a digit comes after it. -/
def skipPrefix (base : Nat) (s : List UInt8) : List UInt8 :=
  if base = 16 ∧ s[0]? = some 48 ∧ (s[1]? = some 120 ∨ s[1]? = some 88) ∧
      (s[2]?.map (isDigit base)) = some true then s.drop 2
  else s

/-- The number that the digits at the start denote, and what is behind them. -/
def scanDigits (base : Nat) (s : List UInt8) : Option (Nat × List UInt8) :=
  if s.takeWhile (isDigit base) = [] then none
  else some (digitsValue base (s.takeWhile (isDigit base)), s.dropWhile (isDigit base))

def signed (sign : Option UInt8) (magnitude : Nat) : Int :=
  if sign = some minus then -magnitude else magnitude

/-- The integer at the start of a text, and what is behind it. -/
def scan (base : Nat) (s : List UInt8) : Option (Int × List UInt8) := do
  let s := s.dropWhile isSpace
  let (magnitude, rest) ← scanDigits base (skipPrefix base (skipSign s))
  some (signed s.head? magnitude, rest)

/-! ## The family -/

/-- The nearest `long`. -/
def clipLong (n : Int) : Int := max (-9223372036854775808) (min n 9223372036854775807)

/-- What the unsigned functions make of an integer: the largest `unsigned long`
where its magnitude does not fit, else its residue. -/
def clipUnsigned (n : Int) : UInt64 :=
  if n.natAbs < 18446744073709551616 then UInt64.ofInt n else 18446744073709551615

/-- A conversion: its result, and where it stopped. -/
def convert {α : Type} (clip : Int → α) (s : List UInt8) (base : Nat) : α × List UInt8 :=
  match scan base s with
  | none => (clip 0, s)
  | some (n, rest) => (clip n, rest)

def strtol : List UInt8 → Nat → Int × List UInt8 := convert clipLong

/-- `strtoul`, and `strtoull`. -/
def strtoul : List UInt8 → Nat → UInt64 × List UInt8 := convert clipUnsigned

/-! ## What a text denotes -/

/-- White space, a sign or none, decimal digits: the text denotes `n`. -/
inductive IsDecimal : List UInt8 → Int → Prop
  | intro {spaces sign digits : List UInt8} {n : Int} :
      (∀ c ∈ spaces, isSpace c = true) →
      sign = [] ∧ n = digitsValue 10 digits ∨ sign = [plus] ∧ n = digitsValue 10 digits ∨
        sign = [minus] ∧ n = -digitsValue 10 digits →
      digits ≠ [] → (∀ c ∈ digits, isDigit 10 c = true) →
      IsDecimal (spaces ++ (sign ++ digits)) n

/-- `0x` and hexadecimal digits: the text denotes `n`. -/
inductive IsHex : List UInt8 → Int → Prop
  | intro {x : UInt8} {digits : List UInt8} :
      x = 120 ∨ x = 88 → digits ≠ [] → (∀ c ∈ digits, isDigit 16 c = true) →
      IsHex (48 :: x :: digits) (digitsValue 16 digits)

/-! ## Digits -/

variable {base : Nat} {c : UInt8} {s rest : List UInt8} {m : Nat} {n : Int}

theorem toNat_of_isDigit (hbase : base ≤ 16) (h : isDigit base c = true) :
    48 ≤ c.toNat ∧ c.toNat ≤ 57 ∨ 97 ≤ c.toNat ∧ c.toNat ≤ 102 ∨ 65 ≤ c.toNat ∧ c.toNat ≤ 70 := by
  rw [isDigit, decide_eq_true_iff] at h
  unfold digitValue at h
  split at h
  · omega
  split at h
  · omega
  split at h
  · omega
  · omega

theorem isSpace_eq_false_of_isDigit (hbase : base ≤ 16) (h : isDigit base c = true) :
    isSpace c = false := by
  have hrange := toNat_of_isDigit hbase h
  rw [isSpace, decide_eq_false_iff_not]
  omega

/-- A digit is none of the characters that mean something else. -/
theorem isDigit_ne (hbase : base ≤ 16) (h : isDigit base c = true) {d : UInt8}
    (hd : d.toNat < 48 ∨ d.toNat = 58 ∨ 102 < d.toNat) : c ≠ d := by
  have hrange := toNat_of_isDigit hbase h
  rintro rfl
  omega

theorem scanDigits_iff : scanDigits base s = some (m, []) ↔
    s ≠ [] ∧ (∀ c ∈ s, isDigit base c = true) ∧ m = digitsValue base s := by
  unfold scanDigits
  constructor
  · intro h
    split at h
    · cases h
    · rename_i hsome
      obtain ⟨rfl, hrest⟩ := Prod.mk.inj (Option.some.inj h)
      have hall := List.dropWhile_eq_nil_iff.mp hrest
      have htake := List.takeWhile_eq_self_iff.mpr hall
      rw [htake] at hsome ⊢
      exact ⟨hsome, hall, rfl⟩
  · rintro ⟨hsome, hall, rfl⟩
    have htake := List.takeWhile_eq_self_iff.mpr hall
    have hdrop := List.dropWhile_eq_nil_iff.mpr hall
    rw [htake, hdrop, if_neg hsome]

/-! ## The characters of a number -/

theorem IsDecimal.mem (h : IsDecimal s n) (hc : c ∈ s) :
    isSpace c = true ∨ c = plus ∨ c = minus ∨ isDigit 10 c = true := by
  obtain @⟨spaces, sign, digits, n, hspaces, hsign, hsome, hall⟩ := h
  rw [List.mem_append, List.mem_append] at hc
  rcases hc with hc | hc | hc
  · exact .inl (hspaces c hc)
  · rcases hsign with ⟨rfl, -⟩ | ⟨rfl, -⟩ | ⟨rfl, -⟩
    · cases hc
    · exact .inr (.inl (List.mem_singleton.mp hc))
    · exact .inr (.inr (.inl (List.mem_singleton.mp hc)))
  · exact .inr (.inr (.inr (hall c hc)))

theorem IsHex.mem (h : IsHex s n) (hc : c ∈ s) :
    c = 48 ∨ c = 120 ∨ c = 88 ∨ isDigit 16 c = true := by
  obtain @⟨x, digits, hx, hsome, hall⟩ := h
  rw [List.mem_cons, List.mem_cons] at hc
  rcases hc with hc | rfl | hc
  · exact .inl hc
  · exact .inr (hx.imp_right .inl)
  · exact .inr (.inr (.inr (hall c hc)))

/-! ## Scanning up to the end -/

theorem scan_iff : scan base s = some (n, []) ↔
    ∃ m, scanDigits base (skipPrefix base (skipSign (s.dropWhile isSpace))) = some (m, []) ∧
      n = signed (s.dropWhile isSpace).head? m := by
  simp only [scan, Option.bind_eq_bind, Option.bind_eq_some_iff, Prod.exists, Option.some.injEq,
    Prod.mk.injEq]
  constructor
  · rintro ⟨m, _, hdigits, rfl, rfl⟩
    exact ⟨m, hdigits, rfl⟩
  · rintro ⟨m, hdigits, rfl⟩
    exact ⟨m, [], hdigits, rfl, rfl⟩

theorem skipPrefix_ten (s : List UInt8) : skipPrefix 10 s = s :=
  if_neg fun h => absurd h.1 (by decide)

/-- A text of digits has no white space and no sign to skip. -/
theorem digits_start (hbase : base ≤ 16) (hsome : s ≠ []) (hall : ∀ c ∈ s, isDigit base c = true) :
    s.dropWhile isSpace = s ∧ s.head? ≠ some plus ∧ s.head? ≠ some minus := by
  obtain ⟨c, t, rfl⟩ := List.exists_cons_of_ne_nil hsome
  have hc := hall c (List.mem_cons_self ..)
  refine ⟨List.dropWhile_cons_of_neg ?_, ?_, ?_⟩
  · rw [isSpace_eq_false_of_isDigit hbase hc]
    exact Bool.false_ne_true
  · exact fun h => isDigit_ne hbase hc (.inl (by decide)) (Option.some.inj h)
  · exact fun h => isDigit_ne hbase hc (.inl (by decide)) (Option.some.inj h)

theorem dropWhile_isSpace_sign {sign : UInt8} (hsign : sign = plus ∨ sign = minus) :
    (sign :: s).dropWhile isSpace = sign :: s := by
  rcases hsign with rfl | rfl
  all_goals exact List.dropWhile_cons_of_neg (by decide)

/-- The text of a decimal is scanned to its end. -/
theorem IsDecimal.scan (h : IsDecimal s n) : scan 10 s = some (n, []) := by
  obtain @⟨spaces, sign, digits, n, hspaces, hsign, hsome, hall⟩ := h
  obtain ⟨hdrop, hplus, hminus⟩ := digits_start (by decide) hsome hall
  have hdigits : scanDigits 10 digits = some (digitsValue 10 digits, []) :=
    scanDigits_iff.mpr ⟨hsome, hall, rfl⟩
  refine scan_iff.mpr ⟨digitsValue 10 digits, ?_, ?_⟩
  all_goals
    rw [List.dropWhile_append_of_pos hspaces]
    rcases hsign with ⟨rfl, rfl⟩ | ⟨rfl, rfl⟩ | ⟨rfl, rfl⟩
  · rw [List.nil_append, hdrop, skipSign, if_neg (not_or_intro hplus hminus), skipPrefix_ten,
      hdigits]
  · rw [List.singleton_append, dropWhile_isSpace_sign (.inl rfl), skipSign, if_pos (.inl rfl),
      List.tail_cons, skipPrefix_ten, hdigits]
  · rw [List.singleton_append, dropWhile_isSpace_sign (.inr rfl), skipSign, if_pos (.inr rfl),
      List.tail_cons, skipPrefix_ten, hdigits]
  · rw [List.nil_append, hdrop, signed, if_neg hminus]
  · rw [List.singleton_append, dropWhile_isSpace_sign (.inl rfl), signed, List.head?_cons,
      if_neg (by decide)]
  · rw [List.singleton_append, dropWhile_isSpace_sign (.inr rfl), signed, List.head?_cons,
      if_pos (by decide)]

/-- A text that is scanned to its end is a decimal. -/
theorem isDecimal_of_scan (h : Library.scan 10 s = some (n, [])) : IsDecimal s n := by
  obtain ⟨m, hscan, rfl⟩ := scan_iff.mp h
  rw [skipPrefix_ten] at hscan
  obtain ⟨hsome, hall, rfl⟩ := scanDigits_iff.mp hscan
  obtain ⟨spaces, t, hspaces, hs, ht⟩ : ∃ spaces t, (∀ c ∈ spaces, isSpace c = true) ∧
      s = spaces ++ t ∧ s.dropWhile isSpace = t :=
    ⟨s.takeWhile isSpace, _, fun c => List.mem_takeWhile_imp,
      List.takeWhile_append_dropWhile.symm, rfl⟩
  rw [ht] at hsome hall ⊢
  rw [hs]
  by_cases hminus : t.head? = some minus
  · obtain ⟨digits, rfl⟩ := List.head?_eq_some_iff.mp hminus
    rw [skipSign, if_pos (.inr rfl), List.tail_cons] at hsome hall ⊢
    exact .intro hspaces (.inr (.inr ⟨rfl, if_pos rfl⟩)) hsome hall
  by_cases hplus : t.head? = some plus
  · obtain ⟨digits, rfl⟩ := List.head?_eq_some_iff.mp hplus
    rw [skipSign, if_pos (.inl rfl), List.tail_cons] at hsome hall ⊢
    exact .intro hspaces (.inr (.inl ⟨rfl, if_neg hminus⟩)) hsome hall
  · rw [skipSign, if_neg (not_or_intro hplus hminus)] at hsome hall ⊢
    exact .intro hspaces (.inl ⟨rfl, if_neg hminus⟩) hsome hall

/-- A text that starts with `0x` is no decimal. -/
theorem not_isDecimal_hex {x : UInt8} (hx : x = 120 ∨ x = 88) {t : List UInt8} :
    ¬ IsDecimal (48 :: x :: t) n := by
  intro h
  have hmem := h.mem (c := x) (by simp)
  rcases hx with rfl | rfl
  all_goals exact absurd hmem (by decide)

theorem scan_ten_iff : Library.scan 10 s = some (n, []) ↔ IsDecimal s n :=
  ⟨isDecimal_of_scan, IsDecimal.scan⟩

/-- A text denotes one decimal at most. -/
theorem IsDecimal.unique {n' : Int} (h : IsDecimal s n) (h' : IsDecimal s n') : n = n' :=
  (Prod.mk.inj (Option.some.inj (h.scan.symm.trans h'.scan))).1

/-- Hexadecimal digits are scanned to their end, unless they could be `0x`. -/
theorem scan_hexDigits (hsome : s ≠ []) (hall : ∀ c ∈ s, isDigit 16 c = true) :
    Library.scan 16 s = some ((digitsValue 16 s : Int), []) := by
  obtain ⟨hdrop, hplus, hminus⟩ := digits_start (by decide) hsome hall
  have hprefix : skipPrefix 16 s = s := by
    refine if_neg fun h => ?_
    rcases h.2.2.1 with hx | hx
    all_goals
      have hdigit := hall _ (List.mem_of_getElem? hx)
      exact absurd hdigit (by decide)
  refine scan_iff.mpr ⟨digitsValue 16 s, ?_, ?_⟩
  · rw [hdrop, skipSign, if_neg (not_or_intro hplus hminus), hprefix]
    exact scanDigits_iff.mpr ⟨hsome, hall, rfl⟩
  · rw [hdrop, signed, if_neg hminus]

/-- After `0x` the text is scanned to its end if it goes on with digits only. -/
theorem scan_sixteen_iff {x : UInt8} (hx : x = 120 ∨ x = 88) {t : List UInt8} :
    Library.scan 16 (48 :: x :: t) = some (n, []) ↔ IsHex (48 :: x :: t) n := by
  have hdrop : (48 :: x :: t).dropWhile isSpace = 48 :: x :: t :=
    List.dropWhile_cons_of_neg (by decide)
  have hsign : skipSign (48 :: x :: t) = 48 :: x :: t :=
    if_neg (by rw [List.head?_cons]; decide)
  have hxdigit : isDigit 16 x = false := by
    rcases hx with rfl | rfl
    all_goals decide
  have hsigned : ∀ m, signed (48 :: x :: t).head? m = (m : Int) := fun m =>
    if_neg (by rw [List.head?_cons]; decide)
  simp only [scan_iff, hdrop, hsign, hsigned]
  constructor
  · rintro ⟨m, hm, rfl⟩
    by_cases hprefix : (t[0]?.map (isDigit 16)) = some true
    · have hskip : skipPrefix 16 (48 :: x :: t) = t :=
        if_pos ⟨rfl, rfl, by simpa using hx, hprefix⟩
      rw [hskip] at hm
      obtain ⟨hsome, hall, rfl⟩ := scanDigits_iff.mp hm
      exact .intro hx hsome hall
    · have hskip : skipPrefix 16 (48 :: x :: t) = 48 :: x :: t :=
        if_neg fun h => hprefix h.2.2.2
      rw [hskip] at hm
      obtain ⟨-, hall, -⟩ := scanDigits_iff.mp hm
      have hdigit := hall x (by simp)
      rw [hxdigit] at hdigit
      cases hdigit
  · intro h
    cases h with
    | intro _ hsome hall =>
        obtain ⟨c, u, rfl⟩ := List.exists_cons_of_ne_nil hsome
        have hskip : skipPrefix 16 (48 :: x :: c :: u) = c :: u :=
          if_pos ⟨rfl, rfl, by simpa using hx, by simpa using hall c (List.mem_cons_self ..)⟩
        rw [hskip]
        exact ⟨_, scanDigits_iff.mpr ⟨hsome, hall, rfl⟩, rfl⟩

/-! ## The checks of a caller -/

theorem scan_nil (base : Nat) : Library.scan base [] = none := by
  have hskip : skipPrefix base (skipSign ([].dropWhile isSpace)) = [] := by
    simp [skipSign, skipPrefix]
  rw [Library.scan, hskip]
  rfl

/-- A conversion that moved the end pointer, to the end of the string, has
scanned the whole string. -/
theorem convert_iff {α : Type} {clip : Int → α} {value : α} :
    ¬ ((convert clip s base).2 = s ∨ (convert clip s base).2 ≠ []) ∧
        (convert clip s base).1 = value ↔
      ∃ n, Library.scan base s = some (n, []) ∧ clip n = value := by
  unfold convert
  cases hscan : Library.scan base s with
  | none => simp
  | some found =>
      obtain ⟨n, rest⟩ := found
      simp only [Option.some.injEq, Prod.mk.injEq, not_or, not_not]
      constructor
      · rintro ⟨⟨-, rfl⟩, rfl⟩
        exact ⟨n, ⟨rfl, rfl⟩, rfl⟩
      · rintro ⟨_, ⟨rfl, rfl⟩, rfl⟩
        refine ⟨⟨?_, rfl⟩, rfl⟩
        rintro rfl
        exact nomatch (scan_nil base).symm.trans hscan

/-- The unsigned functions keep what fits, and nothing else. -/
theorem clipUnsigned_eq_iff :
    ((clipUnsigned n).toNat : Int) = n ↔ 0 ≤ n ∧ n < 18446744073709551616 := by
  have hsize := (clipUnsigned n).toNat_lt
  constructor
  · intro h
    omega
  · rintro ⟨hlow, hhigh⟩
    rw [clipUnsigned, if_pos (by omega), UInt64.ofInt, UInt64.toNat_ofNat']
    omega

end EsphomeApi.Library
