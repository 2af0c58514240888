/-
EsphomeApi.Cli.ParseNumbers — the numbers of the command line: `parse_int`,
`parse_uint` and `parse_ble_addr` of `actions/entity_actions.cpp`.

All three go through the `strtol` family. `IsDecimal`, `IsHex` and `IsMac` say
what a text denotes, and a function is right about a text if it throws or
returns what the text denotes. `parseInt_eq_ok_iff`, `parseUint_eq_ok_iff` and
the two lemmas about `parseBleAddr` say what the functions accept and return;
what is left is where that is the number itself.

The functions hand `strtol` the text up to its first zero byte (`cStr`), cut a
`long` to 32 bits, and do not look at where `strtoul` stops in a group of an
address.
-/
import EsphomeApi.Exception
import EsphomeApi.Library.Strtol

namespace EsphomeApi.Cli

open Library

/-! ## The functions -/

/-- `std::invalid_argument`. -/
structure InvalidArgument where
  what : CString
  deriving DecidableEq, Repr

def badArg {α : Type} (what : CString) : Except InvalidArgument α := .error ⟨what⟩

/-- What `text.c_str()` points to. -/
def cStr (text : CString) : List UInt8 := text.takeWhile (· ≠ 0)

/-- `static_cast<std::int32_t>` of a `long`. -/
def toInt32 (value : Int) : Int := value.bmod 4294967296

def parseInt (text : CString) : Except InvalidArgument Int :=
  let (value, end_) := strtol (cStr text) 10
  if end_ = cStr text ∨ end_ ≠ [] then badArg (lit "not an integer: " ++ text)
  else .ok (toInt32 value)

def parseUint (text : CString) : Except InvalidArgument Nat := do
  let value ← parseInt text
  if value < 0 then badArg (lit "not a non-negative integer: " ++ text)
  else .ok value.toNat

/-- The character `:`. -/
def colon : UInt8 := 58

/-- The strings that `std::getline` reads from a stream of the text, one after
the other; there is none after a separator at the end. -/
def getlines (separator : UInt8) : CString → List CString
  | [] => []
  | c :: text =>
      if c = separator then [] :: getlines separator text
      else
        match getlines separator text with
        | [] => [[c]]
        | line :: lines => (c :: line) :: lines

/-- One turn of the loop of `parse_ble_addr`. -/
def addByte (addr : UInt64) (byte : CString) : UInt64 :=
  (addr <<< 8) ||| ((strtoul (cStr byte) 16).1 &&& 0xFF)

/-- The base of an address without colons. -/
def bleAddrBase (text : CString) : Nat :=
  if lit "0x" <+: text ∨ lit "0X" <+: text then 16 else 10

def parseBleAddr (text : CString) : Except InvalidArgument UInt64 :=
  if colon ∈ text then
    let bytes := getlines colon text
    if bytes.length ≠ 6 then badArg (lit "expected a 6-byte MAC like AA:BB:CC:DD:EE:FF")
    else .ok (bytes.foldl addByte 0)
  else
    let (addr, end_) := strtoul (cStr text) (bleAddrBase text)
    if end_ = cStr text ∨ end_ ≠ [] then badArg (lit "not a BLE address: " ++ text)
    else .ok addr

/-! ## What a text denotes -/

/-- Six bytes in hexadecimal, of one or two digits, with colons between them:
the text denotes `n`. -/
inductive IsMac : CString → Nat → Prop
  | intro {groups : List CString} :
      groups.length = 6 →
      (∀ group ∈ groups, group ≠ [] ∧ group.length ≤ 2 ∧ ∀ c ∈ group, isDigit 16 c = true) →
      IsMac ([colon].intercalate groups)
        (groups.foldl (fun n group => 256 * n + digitsValue 16 group) 0)

/-- The text denotes the address `n`. -/
def IsBleAddr (text : CString) (n : Nat) : Prop :=
  IsDecimal text n ∨ IsHex text n ∨ IsMac text n

/-- `parse_int` throws, or returns what the text denotes. -/
def IntRight (text : CString) : Prop :=
  ∀ value, parseInt text = .ok value → IsDecimal text value

/-- `parse_uint` throws, or returns what the text denotes. -/
def UintRight (text : CString) : Prop :=
  ∀ value : Nat, parseUint text = .ok value → IsDecimal text value

/-- `parse_ble_addr` throws, or returns what the text denotes. -/
def BleAddrRight (text : CString) : Prop :=
  ∀ addr : UInt64, parseBleAddr text = .ok addr → IsBleAddr text addr.toNat

/-! ## Zero bytes -/

variable {text : CString} {n : Int}

/-- A text without a zero byte is what `c_str()` points to. -/
theorem cStr_eq (h : ∀ c ∈ text, c ≠ 0) : cStr text = text :=
  List.takeWhile_eq_self_iff.mpr fun c hc => decide_eq_true (h c hc)

theorem cStr_of_isDecimal (h : IsDecimal text n) : cStr text = text := by
  refine cStr_eq fun c hc => ?_
  rintro rfl
  exact absurd (h.mem hc) (by decide)

theorem cStr_of_isHex (h : IsHex text n) : cStr text = text := by
  refine cStr_eq fun c hc => ?_
  rintro rfl
  exact absurd (h.mem hc) (by decide)

/-- What `text.c_str()` points to starts with `0x` where the text does. -/
theorem cStr_hex {x : UInt8} (hx : x = 120 ∨ x = 88) (t : CString) :
    cStr (48 :: x :: t) = 48 :: x :: cStr t := by
  rcases hx with rfl | rfl
  all_goals rfl

/-! ## Integers -/

theorem toInt32_clipLong_eq_iff :
    toInt32 (clipLong n) = n ↔ -2147483648 ≤ n ∧ n < 2147483648 := by
  rw [toInt32, clipLong, Int.bmod_def]
  constructor
  · intro h
    split at h
    all_goals omega
  · rintro ⟨hlow, hhigh⟩
    split
    all_goals omega

/-- The integers that are negative after they went through `long` and
`std::int32_t`. -/
theorem toInt32_clipLong_neg_iff :
    toInt32 (clipLong n) < 0 ↔
      9223372036854775808 ≤ n ∨ -9223372036854775808 ≤ n ∧ 2147483648 ≤ n % 4294967296 := by
  rw [toInt32, clipLong, Int.bmod_def]
  constructor
  · intro h
    split at h
    all_goals omega
  · intro h
    split
    all_goals omega

theorem parseInt_eq (text : CString) : parseInt text =
    if (strtol (cStr text) 10).2 = cStr text ∨ (strtol (cStr text) 10).2 ≠ [] then
      badArg (lit "not an integer: " ++ text)
    else .ok (toInt32 (strtol (cStr text) 10).1) := rfl

theorem parseInt_eq_ok_iff {value : Int} : parseInt text = .ok value ↔
    ∃ n, IsDecimal (cStr text) n ∧ toInt32 (clipLong n) = value := by
  rw [parseInt_eq, strtol]
  constructor
  · intro h
    split at h
    · cases h
    · rename_i hend
      obtain ⟨n, hscan, hn⟩ := convert_iff.mp ⟨hend, rfl⟩
      refine ⟨n, scan_ten_iff.mp hscan, ?_⟩
      rw [hn]
      exact Except.ok.inj h
  · rintro ⟨n, hn, rfl⟩
    obtain ⟨hend, hvalue⟩ := convert_iff.mpr ⟨n, scan_ten_iff.mpr hn, rfl⟩
    rw [if_neg hend, hvalue]

theorem parseUint_eq_ok_iff {value : Nat} : parseUint text = .ok value ↔
    ∃ n, IsDecimal (cStr text) n ∧ toInt32 (clipLong n) = value := by
  rw [← parseInt_eq_ok_iff]
  unfold parseUint
  cases hint : parseInt text with
  | error e =>
      refine iff_of_false (fun h => nomatch h) (fun h => nomatch h)
  | ok int =>
      simp only [bind, Except.bind, Except.ok.injEq]
      constructor
      · intro h
        split at h
        · cases h
        · cases h
          omega
      · rintro rfl
        rw [if_neg (by omega), Int.toNat_natCast]

/-- `parse_int` is right where the text denotes nothing that it stops at, or is
all of the text and fits. -/
theorem intRight_iff : IntRight text ↔ ∀ n, IsDecimal (cStr text) n →
    cStr text = text ∧ -2147483648 ≤ n ∧ n < 2147483648 := by
  constructor
  · intro hright n hn
    have hvalue := hright _ (parseInt_eq_ok_iff.mpr ⟨n, hn, rfl⟩)
    have hall := cStr_of_isDecimal hvalue
    rw [hall] at hn
    exact ⟨hall, toInt32_clipLong_eq_iff.mp (hvalue.unique hn)⟩
  · intro hcondition value hvalue
    obtain ⟨n, hn, rfl⟩ := parseInt_eq_ok_iff.mp hvalue
    obtain ⟨hall, hfits⟩ := hcondition n hn
    rw [toInt32_clipLong_eq_iff.mpr hfits]
    rwa [hall] at hn

theorem uintRight_iff : UintRight text ↔ ∀ n, IsDecimal (cStr text) n →
    (9223372036854775808 ≤ n ∨ -9223372036854775808 ≤ n ∧ 2147483648 ≤ n % 4294967296) ∨
      cStr text = text ∧ 0 ≤ n ∧ n < 2147483648 := by
  constructor
  · intro hright n hn
    rw [← toInt32_clipLong_neg_iff, or_iff_not_imp_left]
    intro hpos
    have hvalue := hright (toInt32 (clipLong n)).toNat
      (parseUint_eq_ok_iff.mpr ⟨n, hn, (Int.toNat_of_nonneg (not_lt.mp hpos)).symm⟩)
    rw [Int.toNat_of_nonneg (not_lt.mp hpos)] at hvalue
    have hall := cStr_of_isDecimal hvalue
    rw [hall] at hn
    have hn' := hvalue.unique hn
    have hfits := toInt32_clipLong_eq_iff.mp hn'
    exact ⟨hall, by omega, hfits.2⟩
  · intro hcondition value hvalue
    obtain ⟨n, hn, hclip⟩ := parseUint_eq_ok_iff.mp hvalue
    rcases hcondition n hn with hneg | ⟨hall, hlow, hhigh⟩
    · have := toInt32_clipLong_neg_iff.mpr hneg
      omega
    · rw [toInt32_clipLong_eq_iff.mpr ⟨by omega, hhigh⟩] at hclip
      rw [hall, hclip] at hn
      exact hn

/-! ## Addresses without a colon -/

theorem hasPrefix_iff (text : CString) : lit "0x" <+: text ∨ lit "0X" <+: text ↔
    ∃ (x : UInt8) (t : CString), (x = 120 ∨ x = 88) ∧ text = 48 :: x :: t := by
  constructor
  · rintro (⟨t, rfl⟩ | ⟨t, rfl⟩)
    · exact ⟨120, t, .inl rfl, rfl⟩
    · exact ⟨88, t, .inr rfl, rfl⟩
  · rintro ⟨x, t, rfl | rfl, rfl⟩
    · exact .inl ⟨t, rfl⟩
    · exact .inr ⟨t, rfl⟩

/-- Where the text has no colon, what stands before its first zero byte is
scanned as a decimal, or after `0x` as a hexadecimal. -/
theorem scan_bleAddrBase_iff : scan (bleAddrBase text) (cStr text) = some (n, []) ↔
    IsDecimal (cStr text) n ∨ IsHex (cStr text) n := by
  unfold bleAddrBase
  by_cases hprefix : lit "0x" <+: text ∨ lit "0X" <+: text
  · rw [if_pos hprefix]
    obtain ⟨x, t, hx, rfl⟩ := (hasPrefix_iff text).mp hprefix
    rw [cStr_hex hx, scan_sixteen_iff hx, or_iff_right (not_isDecimal_hex hx)]
  · rw [if_neg hprefix, scan_ten_iff, or_iff_left]
    intro hhex
    obtain ⟨t, ht⟩ : cStr text <+: text := List.takeWhile_prefix _
    cases hhex' : cStr text with
    | nil =>
        rw [hhex'] at hhex
        cases hhex
    | cons c s =>
        rw [hhex'] at hhex
        obtain @⟨x, digits, hx, -, -⟩ := hhex
        refine hprefix ((hasPrefix_iff text).mpr ⟨x, digits ++ t, hx, ?_⟩)
        rw [← ht, hhex', List.cons_append, List.cons_append]

theorem parseBleAddr_of_notMem (h : colon ∉ text) {addr : UInt64} :
    parseBleAddr text = .ok addr ↔
      ∃ n, (IsDecimal (cStr text) n ∨ IsHex (cStr text) n) ∧ clipUnsigned n = addr := by
  have heq : parseBleAddr text =
      if (strtoul (cStr text) (bleAddrBase text)).2 = cStr text ∨
          (strtoul (cStr text) (bleAddrBase text)).2 ≠ [] then
        badArg (lit "not a BLE address: " ++ text)
      else .ok (strtoul (cStr text) (bleAddrBase text)).1 := if_neg h
  rw [heq]
  simp only [← scan_bleAddrBase_iff]
  rw [← convert_iff, ← strtoul]
  constructor
  · intro haddr
    split at haddr
    · cases haddr
    · rename_i hend
      exact ⟨hend, Except.ok.inj haddr⟩
  · rintro ⟨hend, haddr⟩
    rw [if_neg hend, haddr]

/-! ## Addresses with colons -/

theorem getlines_append {separator : UInt8} {line : CString} (hline : separator ∉ line)
    (text : CString) :
    getlines separator (line ++ separator :: text) = line :: getlines separator text := by
  induction line with
  | nil => simp [getlines]
  | cons c line ih =>
      obtain ⟨hc, hrest⟩ := not_or.mp (mt List.mem_cons.mpr hline)
      rw [List.cons_append, getlines, if_neg (Ne.symm hc), ih hrest]

theorem getlines_self {separator : UInt8} {line : CString} (hsome : line ≠ [])
    (hline : separator ∉ line) : getlines separator line = [line] := by
  induction line with
  | nil => exact absurd rfl hsome
  | cons c line ih =>
      obtain ⟨hc, hrest⟩ := not_or.mp (mt List.mem_cons.mpr hline)
      rw [getlines, if_neg (Ne.symm hc)]
      cases line with
      | nil => rfl
      | cons d line => rw [ih (List.cons_ne_nil _ _) hrest]

/-- Lines that are not empty are read back from the text they make. -/
theorem getlines_intercalate {separator : UInt8} {lines : List CString}
    (h : ∀ line ∈ lines, line ≠ [] ∧ separator ∉ line) :
    getlines separator ([separator].intercalate lines) = lines := by
  induction lines with
  | nil => rfl
  | cons line lines ih =>
      obtain ⟨hsome, hline⟩ := h line (List.mem_cons_self ..)
      have hlines := ih fun l hl => h l (List.mem_cons_of_mem _ hl)
      cases lines with
      | nil => simpa using getlines_self hsome hline
      | cons next lines =>
          rw [List.intercalate_cons_cons, List.append_assoc, List.singleton_append,
            getlines_append hline, hlines]

theorem digitsValue_lt {group : CString} (hlength : group.length ≤ 2)
    (hall : ∀ c ∈ group, isDigit 16 c = true) : digitsValue 16 group < 256 := by
  have hlt : digitsValue 16 group < 16 ^ (group.reverse.map digitValue).length := by
    refine Nat.ofDigits_lt_base_pow_length (by decide) fun d hd => ?_
    obtain ⟨c, hc, rfl⟩ := List.mem_map.mp hd
    exact of_decide_eq_true (hall c (List.mem_reverse.mp hc))
  rw [List.length_map, List.length_reverse] at hlt
  exact hlt.trans_le (Nat.pow_le_pow_right (by decide) hlength)

/-- A group of hexadecimal digits is added as the byte it denotes. -/
theorem addByte_of_digits {group : CString} (hsome : group ≠ []) (hlength : group.length ≤ 2)
    (hall : ∀ c ∈ group, isDigit 16 c = true) {addr : UInt64}
    (haddr : addr.toNat < 72057594037927936) :
    (addByte addr group).toNat = 256 * addr.toNat + digitsValue 16 group := by
  have hvalue := digitsValue_lt hlength hall
  have hcstr : cStr group = group :=
    cStr_eq fun c hc => isDigit_ne (by decide) (hall c hc) (.inl (by decide))
  have hbyte : (strtoul group 16).1.toNat = digitsValue 16 group := by
    have hclip := clipUnsigned_eq_iff.mpr ⟨Int.natCast_nonneg (digitsValue 16 group), by omega⟩
    rw [strtoul, convert, scan_hexDigits hsome hall]
    exact Int.ofNat.inj hclip
  have hmask : ((strtoul group 16).1 &&& 0xFF).toNat = digitsValue 16 group := by
    rw [UInt64.toNat_and, hbyte]
    exact (Nat.and_two_pow_sub_one_eq_mod _ 8).trans (Nat.mod_eq_of_lt hvalue)
  have hshift : (addr <<< 8).toNat = addr.toNat <<< 8 := by
    rw [UInt64.toNat_shiftLeft, show (8 : UInt64).toNat % 64 = 8 by decide, Nat.shiftLeft_eq]
    exact Nat.mod_eq_of_lt (by omega)
  rw [addByte, hcstr, UInt64.toNat_or, hshift, hmask, ← Nat.shiftLeft_add_eq_or_of_lt hvalue,
    Nat.shiftLeft_eq]
  omega

/-- Groups of digits after an address of `k` bytes, where there is room for
them. -/
theorem foldl_addByte {groups : List CString}
    (h : ∀ group ∈ groups, group ≠ [] ∧ group.length ≤ 2 ∧ ∀ c ∈ group, isDigit 16 c = true)
    {k : Nat} (hroom : k + groups.length ≤ 8) {addr : UInt64} (haddr : addr.toNat < 256 ^ k) :
    (groups.foldl addByte addr).toNat
      = groups.foldl (fun n group => 256 * n + digitsValue 16 group) addr.toNat := by
  induction groups generalizing k addr with
  | nil => rfl
  | cons group groups ih =>
      obtain ⟨hsome, hlength, hall⟩ := h group (List.mem_cons_self ..)
      rw [List.length_cons] at hroom
      have hfits : addr.toNat < 72057594037927936 :=
        haddr.trans_le (Nat.pow_le_pow_right (by decide) (by omega : k ≤ 7))
      have hbyte := addByte_of_digits hsome hlength hall hfits
      have hnext : (addByte addr group).toNat < 256 ^ (k + 1) := by
        have hvalue := digitsValue_lt hlength hall
        rw [hbyte, Nat.pow_succ]
        omega
      rw [List.foldl_cons, List.foldl_cons, ← hbyte]
      exact ih (fun g hg => h g (List.mem_cons_of_mem _ hg)) (by omega) hnext

/-- The lines of an address are its groups. -/
theorem IsMac.lines {m : Nat} (h : IsMac text m) : (getlines colon text).length = 6 ∧
    (∀ line ∈ getlines colon text, line.length ≤ 2) ∧
    ((getlines colon text).foldl addByte 0).toNat = m := by
  obtain @⟨groups, hlength, hgroups⟩ := h
  have hlines : getlines colon ([colon].intercalate groups) = groups := by
    refine getlines_intercalate fun group hgroup => ?_
    obtain ⟨hsome, -, hall⟩ := hgroups group hgroup
    exact ⟨hsome, fun hc => isDigit_ne (by decide) (hall colon hc) (.inr (.inl rfl)) rfl⟩
  rw [hlines]
  exact ⟨hlength, fun group hgroup => (hgroups group hgroup).2.1,
    foldl_addByte hgroups (k := 0) (by omega) (by decide)⟩

theorem IsMac.colon_mem {m : Nat} (h : IsMac text m) : colon ∈ text := by
  by_contra hnone
  have hlength := h.lines.1
  by_cases hempty : text = []
  · rw [hempty] at hlength
    cases hlength
  · rw [getlines_self hempty hnone] at hlength
    cases hlength

theorem parseBleAddr_of_mem (h : colon ∈ text) {addr : UInt64} : parseBleAddr text = .ok addr ↔
    (getlines colon text).length = 6 ∧ (getlines colon text).foldl addByte 0 = addr := by
  have heq : parseBleAddr text =
      if (getlines colon text).length ≠ 6 then
        badArg (lit "expected a 6-byte MAC like AA:BB:CC:DD:EE:FF")
      else .ok ((getlines colon text).foldl addByte 0) := if_pos h
  rw [heq]
  by_cases hlength : (getlines colon text).length = 6
  · rw [if_neg (not_not_intro hlength), Except.ok.injEq, and_iff_right hlength]
  · rw [if_pos hlength]
    exact iff_of_false (fun h => nomatch h) fun h => hlength h.1

/-! ## Addresses -/

theorem bleAddrRight_of_notMem (h : colon ∉ text) : BleAddrRight text ↔
    ∀ n, IsDecimal (cStr text) n ∨ IsHex (cStr text) n →
      cStr text = text ∧ 0 ≤ n ∧ n < 18446744073709551616 := by
  constructor
  · intro hright n hn
    have haddr := hright _ ((parseBleAddr_of_notMem h).mpr ⟨n, hn, rfl⟩)
    have hdenotes : IsDecimal text (clipUnsigned n).toNat ∨ IsHex text (clipUnsigned n).toNat :=
      haddr.imp_right fun hother => hother.resolve_right fun hmac => h hmac.colon_mem
    have hall : cStr text = text := hdenotes.elim cStr_of_isDecimal cStr_of_isHex
    have hscan := scan_bleAddrBase_iff.mpr hn
    have hscan' : scan (bleAddrBase text) (cStr text)
        = some (((clipUnsigned n).toNat : Int), []) :=
      scan_bleAddrBase_iff.mpr (by rwa [hall])
    have hn' := (Prod.mk.inj (Option.some.inj (hscan'.symm.trans hscan))).1
    exact ⟨hall, clipUnsigned_eq_iff.mp hn'⟩
  · intro hcondition addr haddr
    obtain ⟨n, hn, rfl⟩ := (parseBleAddr_of_notMem h).mp haddr
    obtain ⟨hall, hfits⟩ := hcondition n hn
    rw [hall] at hn
    unfold IsBleAddr
    rw [clipUnsigned_eq_iff.mpr hfits]
    exact hn.imp_right .inl

theorem bleAddrRight_of_mem (h : colon ∈ text) : BleAddrRight text ↔
    ((getlines colon text).length = 6 → ∃ m, IsMac text m) := by
  constructor
  · intro hright hlength
    rcases hright _ ((parseBleAddr_of_mem h).mpr ⟨hlength, rfl⟩) with hdecimal | hhex | hmac
    · exact absurd (hdecimal.mem h) (by decide)
    · exact absurd (hhex.mem h) (by decide)
    · exact ⟨_, hmac⟩
  · intro hcondition addr haddr
    obtain ⟨hlength, rfl⟩ := (parseBleAddr_of_mem h).mp haddr
    obtain ⟨m, hmac⟩ := hcondition hlength
    rw [hmac.lines.2.2]
    exact .inr (.inr hmac)

/-! ## Numbers that are altered -/

/-- Where the functions are right, for any text. `parse_int`: what stands before
the first zero byte, if it is a decimal, is all of the text and fits into 32
bits. `parse_uint`: or it is one that is negative when it is cut to 32 bits, for
then it throws. `parse_ble_addr`: without a colon, what stands before the first
zero byte, if it is a decimal or a hexadecimal, is all of the text and fits into
64 bits; with colons, a text of six lines is six bytes in hexadecimal. -/
theorem parseNumbers_right_iff (text : CString) :
    (IntRight text ↔ ∀ n, IsDecimal (cStr text) n →
      cStr text = text ∧ -2147483648 ≤ n ∧ n < 2147483648) ∧
    (UintRight text ↔ ∀ n, IsDecimal (cStr text) n →
      (9223372036854775808 ≤ n ∨ -9223372036854775808 ≤ n ∧ 2147483648 ≤ n % 4294967296) ∨
        cStr text = text ∧ 0 ≤ n ∧ n < 2147483648) ∧
    (BleAddrRight text ↔
      (colon ∉ text → ∀ n, IsDecimal (cStr text) n ∨ IsHex (cStr text) n →
        cStr text = text ∧ 0 ≤ n ∧ n < 18446744073709551616) ∧
      (colon ∈ text → (getlines colon text).length = 6 → ∃ m, IsMac text m)) := by
  refine ⟨intRight_iff, uintRight_iff, ?_⟩
  by_cases h : colon ∈ text
  · rw [bleAddrRight_of_mem h]
    exact ⟨fun hmac => ⟨absurd h, fun _ => hmac⟩, fun hboth => hboth.2 h⟩
  · rw [bleAddrRight_of_notMem h]
    exact ⟨fun hfits => ⟨fun _ => hfits, (absurd · h)⟩, fun hboth => hboth.1 h⟩

/-- `parse_int` and `parse_uint` make 0 of 2^32, and `parse_ble_addr` takes the
last byte of a group. -/
theorem parseNumbers_wrong :
    ¬ IntRight (lit "4294967296") ∧ ¬ UintRight (lit "4294967296") ∧
    ¬ BleAddrRight (lit "1FF:BB:CC:DD:EE:FF") := by
  refine ⟨fun h => ?_, fun h => ?_, fun h => ?_⟩
  · have hzero := h 0 (by decide)
    exact absurd hzero.scan (by decide)
  · have hzero := h 0 (by decide)
    exact absurd hzero.scan (by decide)
  · obtain ⟨m, hmac⟩ := (bleAddrRight_of_mem (by decide)).mp h (by decide)
    exact absurd (hmac.lines.2.1 (lit "1FF") (by decide)) (by decide)

end EsphomeApi.Cli
