import PowerTest.Proofs.Number.Positive
import PowerTest.Proofs.Number.Shortest
import PowerTest.Proofs.Text.Digits
import PowerTest.Yaml.Printer

/-!
# Doubles that are written and read

A decimal that rounds to a magnitude is read as the double with that magnitude, however it is laid
out in digits. So every double but the one that is no number is read from its shortest decimal
(`float?_render`).
-/

namespace PowerTest

namespace Number

open Magnitude Float.Model

variable {magnitude : Magnitude} {digits : Nat} {exponent : Int}

/-! ## Decimals -/

theorem two_pow_le_ten_pow {small large : Nat} (within : 2 ^ small ≤ 10 ^ large) :
    (2 : ℚ) ^ (small : Int) ≤ 10 ^ (large : Int) ∧
      (10 : ℚ) ^ (-(large : Int)) ≤ 2 ^ (-(small : Int)) := by
  have cast : (2 : ℚ) ^ small ≤ 10 ^ large := by exact_mod_cast within
  rw [zpow_neg, zpow_neg, zpow_natCast, zpow_natCast]
  exact ⟨cast, inv_anti₀ (by positivity) cast⟩

/-- A decimal that rounds to a magnitude is neither too small nor too large to be read. -/
theorem size_of_covers (canonical : magnitude.Canonical) (some : 0 < digits)
    (covers : magnitude.Covers (Decimal.value ⟨digits, exponent⟩)) :
    -400 ≤ (Nat.toDigits 10 digits).length + exponent ∧
      (Nat.toDigits 10 digits).length + exponent ≤ 400 := by
  obtain ⟨least, greatest⟩ := pow_length_toDigits some
  have positive := canonical.positive
  have above := @Covers.two_pow_le _ _ 1 covers (by omega)
  have below := covers.below canonical
  generalize ((Nat.toDigits 10 digits).length : Int) = count at *
  have ten : (1 : ℚ) < 10 := by norm_num
  have lowest := canonical.least
  have highest := canonical.greatest
  simp only [Decimal.value] at above below
  have point : (0 : ℚ) < 10 ^ exponent := by positivity
  constructor
  · have small : (10 : ℚ) ^ (-(400 : Nat) : Int) < 10 ^ (count + exponent) := by
      calc (10 : ℚ) ^ (-(400 : Nat) : Int) ≤ 2 ^ (-(1075 : Nat) : Int) :=
            (two_pow_le_ten_pow (by decide +kernel)).2
        _ ≤ 2 ^ (magnitude.exponent - 2 + (1 : Nat)) := by
          refine zpow_le_zpow_right₀ one_le_two ?_
          rw [leastExponent] at lowest
          omega
        _ ≤ digits * 10 ^ exponent := above
        _ < 10 ^ count * 10 ^ exponent := by gcongr
        _ = 10 ^ (count + exponent) := (zpow_add₀ (by norm_num) _ _).symm
    exact ((zpow_lt_zpow_iff_right₀ ten).mp small).le
  · have small : (10 : ℚ) ^ (count - 1 + exponent) < 10 ^ ((400 : Nat) : Int) := by
      calc (10 : ℚ) ^ (count - 1 + exponent) = 10 ^ (count - 1) * 10 ^ exponent :=
            zpow_add₀ (by norm_num) _ _
        _ ≤ digits * 10 ^ exponent := by gcongr
        _ < 2 ^ (magnitude.exponent + 53) := below
        _ ≤ 2 ^ ((1024 : Nat) : Int) := by
          refine zpow_le_zpow_right₀ one_le_two ?_
          omega
        _ ≤ 10 ^ ((400 : Nat) : Int) := (two_pow_le_ten_pow (by decide +kernel)).1
    have := (zpow_lt_zpow_iff_right₀ ten).mp small
    omega

/-- A decimal that rounds to a magnitude is read as the double with its bits. -/
theorem ofDecimal_eq (canonical : magnitude.Canonical) (negative : Bool)
    (covers : magnitude.Covers (Decimal.value ⟨digits, exponent⟩)) :
    ofDecimal negative digits exponent = signed negative magnitude.bits := by
  have some : 0 < digits := by
    have above := covers.pos canonical
    by_contra none
    simp only [Decimal.value, Nat.eq_zero_of_not_pos none, Nat.cast_zero, zero_mul,
      lt_irrefl] at above
  obtain ⟨least, greatest⟩ := size_of_covers canonical some covers
  have inside : (decide (digits = 0) ||
      decide ((Nat.toDigits 10 digits).length + exponent < -400)) = false := by
    rw [Bool.or_eq_false_iff, decide_eq_false_iff_not, decide_eq_false_iff_not]
    exact ⟨some.ne', not_lt.mpr least⟩
  simp only [ofDecimal, inside, Bool.false_eq_true, if_false, not_lt.mpr greatest]
  cases exponent with
  | ofNat power =>
    simp only
    rw [bitsOfRatio_eq canonical Nat.one_pos]
    convert covers using 1
    simp only [Decimal.value, Int.ofNat_eq_natCast, zpow_natCast]
    push_cast
    ring
  | negSucc power =>
    simp only
    rw [bitsOfRatio_eq canonical (Nat.pow_pos (by decide))]
    convert covers using 1
    simp only [Decimal.value, zpow_negSucc]
    push_cast
    rw [div_eq_mul_inv]

/-! ## Bits -/

theorem magnitudeOfBits?_spec {bits : Nat} (found : magnitudeOfBits? bits = some magnitude) :
    magnitude.bits = bits % 2 ^ 63 ∧
      (0 < magnitude.significand → magnitude.Canonical) ∧
      (magnitude.significand = 0 → magnitude.bits = 0) := by
  unfold magnitudeOfBits? at found
  simp only at found
  split_ifs at found with infinite subnormal
  · cases found
    refine ⟨?_, fun positive => ⟨positive, ?_, le_rfl, ?_, fun strict => ?_⟩, fun zero => ?_⟩
    · simp only [Magnitude.bits]
      omega
    · simp only
      omega
    · simp only [leastExponent]
      omega
    · exact absurd strict (lt_irrefl _)
    · simp only [Magnitude.bits] at zero ⊢
      omega
  · cases found
    refine ⟨?_, fun positive => ⟨positive, ?_, ?_, ?_, fun strict => ?_⟩, fun zero => ?_⟩
    · simp only [Magnitude.bits, leastExponent]
      omega
    · simp only
      omega
    · simp only [leastExponent]
      omega
    · simp only
      omega
    · simp only
      omega
    · simp only at zero
      omega

/-- A double is given by its sign and its other bits. -/
theorem signed_isNegative {value : Float} {bits : Nat} (same : bits = value.toBits.toNat % 2 ^ 63) :
    signed (isNegative value) bits = value := by
  have whole : (if isNegative value then 2 ^ 63 + bits else bits) = value.toBits.toNat := by
    have size := value.toBits.toNat_lt
    simp only [isNegative, decide_eq_true_eq]
    split <;> omega
  rw [signed, whole, UInt64.ofNat_toNat, Float.ofBits_toBits]

theorem toNat_unpackMantissa (bits : UInt64) :
    (@UnpackedFloat.unpackMantissa Format.binary64 bits.toBitVec).toNat = bits.toNat % 2 ^ 52 := by
  simp [UnpackedFloat.unpackMantissa]

/-- A double without a magnitude is infinite or no number. -/
theorem signed_infinityBits {value : Float} (infinite : magnitude? value = none)
    (number : value.isNaN = false) : signed (isNegative value) infinityBits = value := by
  refine signed_isNegative ?_
  have field : value.toBits.toNat / 2 ^ 52 % 2 ^ 11 = 2047 := by
    unfold magnitude? magnitudeOfBits? at infinite
    simp only at infinite
    split_ifs at infinite with full
    exact full
  have ones : @UnpackedFloat.unpackExponent Format.binary64 value.toBits.toBitVec = -1#_ := by
    rw [← BitVec.toNat_inj, toNat_unpackExponent, field]
    rfl
  have fraction : value.toBits.toNat % 2 ^ 52 = 0 := by
    rw [← toNat_unpackMantissa]
    by_contra some
    have mantissa : ¬@UnpackedFloat.unpackMantissa Format.binary64 value.toBits.toBitVec = 0#_ :=
      fun none => some (congrArg BitVec.toNat none)
    have unpacked : value.isNaN =
        (UnpackedFloat.unpack Format.binary64 value.toBits.toBitVec).isNaN := rfl
    rw [unpacked, UnpackedFloat.unpack] at number
    simp only [ones, mantissa, if_true, if_false] at number
    cases number
  simp only [infinityBits]
  omega

/-! ## Numerals -/

/-- A character of a number that is written. -/
def Numeric (character : Char) : Prop :=
  Text.isDigit character = true ∨ character = '.' ∨ character = 'e' ∨ character = '-'

theorem numeric_of_digits {digits : List Char} (all : digits.all Text.isDigit = true) :
    ∀ character ∈ digits, Numeric character :=
  fun character member => .inl (List.all_eq_true.mp all character member)

/-- A text that starts with a digit and is read as the exact number of a decimal. -/
structure Numeral (text : List Char) (decimal : Decimal) : Prop where
  starts : ∃ first rest, text = first :: rest ∧ Text.isDigit first = true
  numeric : ∀ character ∈ text, Numeric character
  reads : ∃ digits exponent, unsignedDecimal? text = some (digits, exponent) ∧
    Decimal.value ⟨digits, exponent⟩ = decimal.value

theorem leadingDigits_append {digits rest : List Char} (all : digits.all Text.isDigit = true)
    (bound : rest.head?.all (!Text.isDigit ·) = true) :
    leadingDigits (digits ++ rest) = (digits, rest) := by
  have none : rest.takeWhile Text.isDigit = [] ∧ rest.dropWhile Text.isDigit = rest := by
    cases rest with
    | nil => exact ⟨rfl, rfl⟩
    | cons first others =>
      have no : Text.isDigit first = false := by simpa using bound
      exact ⟨List.takeWhile_cons_of_neg (by simp [no]),
        List.dropWhile_cons_of_neg (by simp [no])⟩
  have each := List.all_eq_true.mp all
  rw [leadingDigits, List.takeWhile_append_of_pos each, List.dropWhile_append_of_pos each, none.1,
    none.2, List.append_nil]

/-- Digits, a point and more digits if there are some, and what spells an exponent. -/
theorem unsignedDecimal?_eq {whole fraction tail : List Char} {power : Int}
    (all : (whole ++ fraction).all Text.isDigit = true) (some : whole ≠ [])
    (after : tail = [] ∨ ∃ rest, tail = 'e' :: rest) (spelled : exponent? tail = .some power) :
    unsignedDecimal? (whole ++ if fraction = [] then tail else '.' :: (fraction ++ tail)) =
      .some (Text.decimalValue (whole ++ fraction), power - fraction.length) := by
  rw [List.all_append, Bool.and_eq_true] at all
  have bound : tail.head?.all (!Text.isDigit ·) = true := by
    rcases after with rfl | ⟨rest, rfl⟩ <;> rfl
  have nonempty : whole.isEmpty = false := List.isEmpty_eq_false_iff.mpr some
  by_cases none : fraction = []
  · subst none
    rw [if_pos rfl, unsignedDecimal?, leadingDigits_append all.1 bound]
    simp only [nonempty, Bool.false_and]
    have same := congrArg (Option.map fun power : Int =>
      (Text.decimalValue (whole ++ []), power - ([] : List Char).length)) spelled
    rcases after with rfl | ⟨rest, rfl⟩ <;> exact same
  · rw [if_neg none, unsignedDecimal?, leadingDigits_append all.1 (by rfl)]
    simp only [leadingDigits_append all.2 bound, nonempty, Bool.false_and, spelled, Option.map_some]
    rfl

/-- Digits and a point between or behind them are a numeral. -/
theorem numeral_of_parts {text : List Char} {decimal : Decimal} (whole fraction tail : List Char)
    (power : Int) (all : (whole ++ fraction).all Text.isDigit = true) (some : whole ≠ [])
    (after : tail = [] ∨ ∃ rest, tail = 'e' :: rest) (spelled : exponent? tail = .some power)
    (numeric : ∀ character ∈ tail, Numeric character)
    (text_eq : text = whole ++ if fraction = [] then tail else '.' :: (fraction ++ tail))
    (value : Decimal.value ⟨Text.decimalValue (whole ++ fraction), power - fraction.length⟩ =
      decimal.value) : Numeral text decimal := by
  refine ⟨?_, ?_, _, _, text_eq ▸ unsignedDecimal?_eq all some after spelled, value⟩
  · cases whole with
    | nil => exact absurd rfl some
    | cons first rest =>
      rw [List.cons_append, List.all_cons, Bool.and_eq_true] at all
      exact ⟨first, _, text_eq, all.1⟩
  · rw [List.all_append, Bool.and_eq_true] at all
    rw [text_eq]
    refine List.forall_mem_append.mpr ⟨numeric_of_digits all.1, ?_⟩
    split
    · exact numeric
    · exact List.forall_mem_cons.mpr ⟨.inr (.inl rfl),
        List.forall_mem_append.mpr ⟨numeric_of_digits all.2, numeric⟩⟩

/-! ## Digits with a point -/

section Point

variable {digits : List Char} (all : digits.all Text.isDigit = true)

include all

/-- Digits, zeros behind them up to the point, and a zero behind the point. -/
theorem numeral_whole (some : digits ≠ []) (power : Nat) :
    Numeral (digits ++ List.replicate power '0' ++ ['.', '0'])
      ⟨Text.decimalValue digits, power⟩ := by
  refine numeral_of_parts (digits ++ List.replicate power '0') ['0'] [] 0
    ?_ ?_ (.inl rfl) rfl (List.forall_mem_nil _) rfl ?_
  · simp only [List.all_append, all, Text.all_isDigit_zeros]
    rfl
  · simp [some]
  · have zeros : Text.decimalValue (digits ++ List.replicate power '0' ++ ['0']) =
        Text.decimalValue digits * 10 ^ (power + 1) := by
      rw [List.append_assoc, ← List.replicate_succ', Text.decimalValue_append_zeros]
    simp only [Decimal.value, zpow_natCast]
    rw [zeros, pow_succ]
    push_cast
    norm_num
    ring

/-- Digits with the point between two of them. -/
theorem numeral_pointed {count : Nat} (some : 0 < count) (inside : count < digits.length) :
    Numeral (digits.take count ++ '.' :: digits.drop count)
      ⟨Text.decimalValue digits, count - digits.length⟩ := by
  refine numeral_of_parts (digits.take count) (digits.drop count) [] 0
    ?_ ?_ (.inl rfl) rfl (List.forall_mem_nil _) ?_ ?_
  · rwa [List.take_append_drop]
  · rw [ne_eq, List.take_eq_nil_iff, not_or]
    exact ⟨some.ne', List.ne_nil_of_length_pos (Nat.zero_lt_of_lt inside)⟩
  · have left : digits.drop count ≠ [] := by
      rw [ne_eq, List.drop_eq_nil_iff]
      omega
    rw [if_neg left, List.append_nil]
  · rw [List.take_append_drop, List.length_drop]
    congr 2
    omega

/-- A zero, a point, more zeros and digits. -/
theorem numeral_below (some : digits ≠ []) (count : Nat) :
    Numeral ('0' :: '.' :: (List.replicate count '0' ++ digits))
      ⟨Text.decimalValue digits, -(count + digits.length : Nat)⟩ := by
  refine numeral_of_parts ['0'] (List.replicate count '0' ++ digits) [] 0
    ?_ (List.cons_ne_nil _ _) (.inl rfl) rfl (List.forall_mem_nil _) ?_ ?_
  · simp only [List.all_append, all, Text.all_isDigit_zeros]
    rfl
  · rw [if_neg (by simp [some]), List.append_nil]
    rfl
  · have zeros : Text.decimalValue (['0'] ++ (List.replicate count '0' ++ digits)) =
        Text.decimalValue digits :=
      Text.decimalValue_zeros_append digits (count + 1)
    rw [zeros, List.length_append, List.length_replicate, Int.zero_sub]

end Point

variable {decimal : Decimal}

theorem numeral_positionalText (decimal : Decimal) :
    Numeral (positionalText ".0" (Nat.toDigits 10 decimal.digits)
      ((Nat.toDigits 10 decimal.digits).length + decimal.exponent)).toList decimal := by
  obtain ⟨number, exponent⟩ := decimal
  have all := Text.all_isDigit_toDigits number
  have value := Text.decimalValue_toDigits number
  have some : Nat.toDigits 10 number ≠ [] := Nat.toDigits_ne_nil
  generalize Nat.toDigits 10 number = digits at *
  subst value
  unfold positionalText
  simp only
  split
  · obtain ⟨power, rfl⟩ := Int.eq_ofNat_of_zero_le (show 0 ≤ exponent by omega)
    have zeros : ((digits.length : Int) + power - digits.length).toNat = power := by omega
    rw [zeros, String.toList_append, String.toList_ofList]
    exact numeral_whole all some power
  split
  · obtain ⟨count, point⟩ := Int.eq_ofNat_of_zero_le (show 0 ≤ digits.length + exponent by omega)
    obtain rfl : exponent = count - digits.length := by omega
    rw [point, Int.toNat_natCast, String.toList_ofList]
    exact numeral_pointed all (by omega) (by omega)
  · obtain ⟨count, point⟩ :=
      Int.eq_ofNat_of_zero_le (show 0 ≤ -(digits.length + exponent) by omega)
    obtain rfl : exponent = -(count + digits.length : Nat) := by omega
    have zero : "0.".toList = ['0', '.'] := rfl
    rw [point, Int.toNat_natCast, String.toList_append, zero, String.toList_ofList]
    exact numeral_below all some count

/-- A digit is no sign. -/
theorem leadingSign_of_isDigit {first : Char} {rest : List Char}
    (digit : Text.isDigit first = true) :
    leadingSign (first :: rest) = (false, first :: rest) := by
  unfold leadingSign
  split
  · rename_i same
    obtain ⟨rfl, -⟩ := List.cons.inj same
    exact absurd digit (by decide)
  · rename_i same
    obtain ⟨rfl, -⟩ := List.cons.inj same
    exact absurd digit (by decide)
  · rfl

theorem exponent?_decimal (power : Int) :
    exponent? ('e' :: ((if power < 0 then "-" else "").toList ++
      Nat.toDigits 10 power.natAbs)) = some power := by
  have all := Text.all_isDigit_toDigits power.natAbs
  have value := Text.decimalValue_toDigits power.natAbs
  cases written : Nat.toDigits 10 power.natAbs with
  | nil => exact absurd written Nat.toDigits_ne_nil
  | cons first rest =>
    rw [written] at all value
    have unsigned : leadingSign (first :: rest) = (false, first :: rest) := by
      rw [List.all_cons, Bool.and_eq_true] at all
      exact leadingSign_of_isDigit all.1
    by_cases negative : power < 0
    · have sign : leadingSign ("-".toList ++ first :: rest) = (true, first :: rest) := rfl
      simp only [exponent?, negative, if_true, sign, all, value, beq_self_eq_true, Bool.true_or,
        List.isEmpty_cons, Bool.not_true, Bool.or_self, Bool.false_eq_true, if_false]
      congr 1
      omega
    · have sign : leadingSign ("".toList ++ first :: rest) = (false, first :: rest) := unsigned
      simp only [exponent?, negative, if_true, sign, all, value, beq_self_eq_true, Bool.true_or,
        List.isEmpty_cons, Bool.not_true, Bool.or_self, Bool.false_eq_true, if_false]
      congr 1
      omega

theorem numeric_exponent (power : Int) :
    ∀ character ∈ 'e' :: ((if power < 0 then "-" else "").toList ++
      Nat.toDigits 10 power.natAbs), Numeric character := by
  refine List.forall_mem_cons.mpr ⟨.inr (.inr (.inl rfl)), List.forall_mem_append.mpr
    ⟨?_, numeric_of_digits (Text.all_isDigit_toDigits _)⟩⟩
  split
  · exact List.forall_mem_singleton.mpr (.inr (.inr (.inr rfl)))
  · exact List.forall_mem_nil _

theorem numeral_scientificText (decimal : Decimal) :
    Numeral (scientificText "" (Nat.toDigits 10 decimal.digits)
      ((Nat.toDigits 10 decimal.digits).length + decimal.exponent)).toList decimal := by
  obtain ⟨number, exponent⟩ := decimal
  have all := Text.all_isDigit_toDigits number
  have value := Text.decimalValue_toDigits number
  have some : Nat.toDigits 10 number ≠ [] := Nat.toDigits_ne_nil
  generalize Nat.toDigits 10 number = digits at *
  subst value
  have spelled := exponent?_decimal (digits.length + exponent - 1)
  have mark : "e".toList = ['e'] := rfl
  have numeric := numeric_exponent (digits.length + exponent - 1)
  match digits, some with
  | [first], _ =>
    refine numeral_of_parts [first] [] _ _ all (List.cons_ne_nil _ _)
      (.inr ⟨_, rfl⟩) spelled numeric ?_ ?_
    · simp only [scientificText, Text.decimal, String.toList_append, String.toList_ofList, mark,
        List.append_assoc, if_true]
      rfl
    · congr 2
      simp only [List.length_cons, List.length_nil]
      omega
  | first :: second :: rest, _ =>
    refine numeral_of_parts [first] (second :: rest) _ _ all
      (List.cons_ne_nil _ _) (.inr ⟨_, rfl⟩) spelled numeric ?_ ?_
    · simp only [scientificText, Text.decimal, String.toList_append, String.toList_ofList, mark,
        List.append_assoc]
      rfl
    · congr 2
      simp only [List.length_cons]
      omega

/-- A decimal in a layout that keeps a fraction is a numeral. -/
theorem numeral_decimalText (layout : Layout) (ending : layout.wholeEnding = ".0")
    (sign : layout.exponentSign = "") (decimal : Decimal) :
    Numeral (layout.decimalText decimal).toList decimal := by
  unfold Layout.decimalText
  rw [ending, sign]
  simp only
  split
  · exact numeral_positionalText decimal
  · split
    · exact numeral_positionalText decimal
    · exact numeral_scientificText decimal

/-- A double with a magnitude is read from its shortest decimal. -/
theorem ofDecimal_of_shortest {value : Float} {tie : Tie}
    (exact : magnitude? value = some magnitude)
    (same : Decimal.value ⟨digits, exponent⟩ = (shortest tie magnitude).value) :
    ofDecimal (isNegative value) digits exponent = value := by
  obtain ⟨bits, canonical, zero⟩ := magnitudeOfBits?_spec exact
  by_cases positive : 0 < magnitude.significand
  · have covers := covers_shortest (canonical positive) tie
    rw [← same] at covers
    rw [ofDecimal_eq (canonical positive) _ covers]
    exact signed_isNegative bits
  · have none : magnitude.significand = 0 := Nat.eq_zero_of_not_pos positive
    have nothing : digits = 0 := by
      rw [shortest, if_pos none, Decimal.value, Decimal.value, Nat.cast_zero, zero_mul,
        mul_eq_zero, Nat.cast_eq_zero] at same
      exact same.resolve_right (by positivity)
    rw [zero none] at bits
    simp only [ofDecimal, nothing, decide_true, Bool.true_or, if_true]
    exact signed_isNegative bits

/-- A numeral with a sign is read as the double of its digits. -/
theorem readFloat_numeral {text : List Char} (numeral : Numeral text decimal) (negative : Bool) :
    ∃ digits exponent, Decimal.value ⟨digits, exponent⟩ = decimal.value ∧
      readFloat ((if negative then ['-'] else []) ++ text) =
        .ok (ofDecimal negative digits exponent) := by
  obtain ⟨⟨first, rest, rfl, digit⟩, -, digits, exponent, reads, same⟩ := numeral
  refine ⟨digits, exponent, same, ?_⟩
  have sign : leadingSign ((if negative then ['-'] else []) ++ first :: rest) =
      (negative, first :: rest) := by
    cases negative with
    | true => rfl
    | false => exact leadingSign_of_isDigit digit
  have some : ((if negative then ['-'] else []) ++ first :: rest).isEmpty = false := by
    cases negative <;> rfl
  simp only [readFloat, sign, some, reads, Bool.false_eq_true, if_false]

end Number

namespace Yaml

open Number

/-- A numeral is none of the words that start with a point. -/
theorem not_contains_of_digit {text : String} {negative : Bool} {first : Char} {rest : List Char}
    (names : List String)
    (written : text.toList = (if negative then ['-'] else []) ++ first :: rest)
    (digit : Text.isDigit first = true)
    (words : ∀ name ∈ names, name.toList.take 1 = ['.'] ∨ name.toList.take 2 = ['-', '.']) :
    names.contains text = false := by
  have point : first ≠ '.' := by
    rintro rfl
    exact absurd digit (by decide)
  have minus : first ≠ '-' := by
    rintro rfl
    exact absurd digit (by decide)
  rw [Bool.eq_false_iff, ne_eq, List.contains_iff_mem]
  intro member
  have word := words text member
  rw [written] at word
  cases negative with
  | true => simp [point] at word
  | false => simp [point, minus] at word

/-- What is written of a double with a magnitude. -/
theorem toList_render {value : Float} {magnitude : Magnitude}
    (exact : Number.magnitude? value = some magnitude) :
    (layout.render value).toList = (if isNegative value then ['-'] else []) ++
      (layout.decimalText (shortest layout.tie magnitude)).toList := by
  rw [Layout.render, exact]
  simp only [withSign]
  split
  · exact String.toList_append
  · rfl

/-- A double that is not no number is read from its written form. -/
theorem float?_render {value : Float} (number : value.isNaN = false) :
    float? (layout.render value) = some value := by
  cases exact : Number.magnitude? value with
  | none =>
    have same := signed_infinityBits exact number
    rw [Layout.render, exact]
    simp only [number, Bool.false_eq_true, if_false]
    by_cases negative : isNegative value = true
    · rw [negative] at same
      rw [if_pos negative, ← same]
      rfl
    · rw [Bool.eq_false_iff.mpr negative] at same
      rw [if_neg negative, ← same]
      rfl
  | some magnitude =>
    have numeral := numeral_decimalText layout rfl rfl (shortest layout.tie magnitude)
    obtain ⟨digits, exponent, same, read⟩ := readFloat_numeral numeral (isNegative value)
    obtain ⟨first, rest, starts, digit⟩ := numeral.starts
    have written := toList_render exact
    rw [← written] at read
    have finite : value.isFinite = true := by
      rw [← magnitude?_isSome_eq, exact]
      rfl
    rw [starts] at written
    -- The text is none of the words for what is not finite.
    have infinite := not_contains_of_digit [".inf", ".Inf", ".INF"] written digit (by decide)
    have below := not_contains_of_digit ["-.inf", "-.Inf", "-.INF"] written digit (by decide)
    have none := not_contains_of_digit [".nan", ".NaN", ".NAN"] written digit (by decide)
    have unsigned : ∀ others, (layout.render value).toList ≠ '+' :: others := by
      intro others same
      rw [written] at same
      cases negative : isNegative value with
      | true =>
        rw [negative] at same
        exact absurd (List.cons.inj same).1 (by decide)
      | false =>
        rw [negative] at same
        obtain ⟨rfl, -⟩ := List.cons.inj same
        exact absurd digit (by decide)
    unfold float?
    simp only [Bool.false_and, Bool.false_eq_true, if_false, String.ofList_toList, infinite,
      below, none, read, ofDecimal_of_shortest exact same, finite, if_true]

end Yaml

end PowerTest
