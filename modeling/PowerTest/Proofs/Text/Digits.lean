import PowerTest.Text.Digits

/-!
# Digits of numbers

The decimal digits of a number spell the number, and they start with a zero only if they are that
zero.
-/

namespace PowerTest.Text

variable {digits : List Char} {number : Nat}

theorem isDigit_eq (character : Char) : isDigit character = character.isDigit := by
  rw [isDigit, Char.isDigit, Bool.eq_iff_iff]
  simp only [Bool.and_eq_true, decide_eq_true_eq, Char.le_def, ge_iff_le]

theorem all_isDigit_toDigits (number : Nat) : (Nat.toDigits 10 number).all isDigit = true := by
  refine List.all_eq_true.mpr fun character member => ?_
  rw [isDigit_eq]
  exact Nat.isDigit_of_mem_toDigits (by decide) (by decide) member

theorem digit?_of_isDigit {character : Char} (digit : isDigit character = true) :
    digit? 10 character = some (character.toNat - '0'.toNat) := by
  have small : character.toNat - '0'.toNat < 10 := by
    rw [isDigit_eq, Char.isDigit_iff_toNat] at digit
    have zero : '0'.toNat = 48 := rfl
    have nine : '9'.toNat = 57 := rfl
    omega
  rw [isDigit] at digit
  simp only [digit?, digit, if_true, Option.bind_some, small]

theorem continueNumber?_of_digits (all : digits.all isDigit = true) (known : Nat) :
    continueNumber? 10 known digits = some (Nat.ofDigitChars 10 digits known) := by
  induction digits generalizing known with
  | nil => rw [continueNumber?, Nat.ofDigitChars_nil]
  | cons first rest ih =>
    rw [List.all_cons, Bool.and_eq_true] at all
    rw [continueNumber?, digit?_of_isDigit all.1, Nat.ofDigitChars_cons, Nat.mul_comm]
    exact ih all.2 _

theorem ofDigits?_toDigits (number : Nat) :
    ofDigits? 10 (Nat.toDigits 10 number) = some number := by
  have digits := continueNumber?_of_digits (all_isDigit_toDigits number) 0
  rw [Nat.ofDigitChars_ten_toDigits] at digits
  cases written : Nat.toDigits 10 number with
  | nil => exact absurd written Nat.toDigits_ne_nil
  | cons first rest =>
    rw [written] at digits
    exact digits

/-- Digits that start with a zero are a zero alone. -/
theorem toDigits_eq_zero_of_head {rest : List Char}
    (zero : Nat.toDigits 10 number = '0' :: rest) : rest = [] := by
  induction number using Nat.strongRecOn generalizing rest with
  | ind number ih =>
    by_cases small : number < 10
    · rw [Nat.toDigits_of_lt_base small] at zero
      exact (List.cons.inj zero).2.symm
    · rw [Nat.toDigits_of_base_le (by decide) (Nat.le_of_not_lt small)] at zero
      cases start : Nat.toDigits 10 (number / 10) with
      | nil => exact absurd start Nat.toDigits_ne_nil
      | cons first others =>
        rw [start, List.cons_append] at zero
        obtain ⟨rfl, rfl⟩ := List.cons.inj zero
        obtain rfl := ih (number / 10) (Nat.div_lt_self (by omega) (by decide)) start
        -- The number without its last digit is no zero.
        have same := Nat.ofDigitChars_ten_toDigits (n := number / 10)
        rw [start] at same
        have nothing : number / 10 = 0 := same.symm
        omega

/-! ## Values of digits -/

theorem decimalValue_eq (digits : List Char) :
    decimalValue digits = Nat.ofDigitChars 10 digits 0 := by
  rw [decimalValue, Nat.ofDigitChars_eq_foldl]
  simp only [Nat.mul_comm]

theorem decimalValue_toDigits (number : Nat) : decimalValue (Nat.toDigits 10 number) = number := by
  rw [decimalValue_eq, Nat.ofDigitChars_ten_toDigits]

theorem decimalValue_append_zeros (digits : List Char) (count : Nat) :
    decimalValue (digits ++ List.replicate count '0') = decimalValue digits * 10 ^ count := by
  induction count with
  | zero => rw [List.replicate_zero, List.append_nil, Nat.pow_zero, Nat.mul_one]
  | succ count ih =>
    rw [List.replicate_succ', ← List.append_assoc, Nat.pow_succ, ← Nat.mul_assoc, ← ih]
    exact List.foldl_append

theorem decimalValue_zeros_append (digits : List Char) (count : Nat) :
    decimalValue (List.replicate count '0' ++ digits) = decimalValue digits := by
  induction count with
  | zero => rfl
  | succ count ih => exact ih

theorem all_isDigit_zeros (count : Nat) : (List.replicate count '0').all isDigit = true :=
  List.all_eq_true.mpr fun _ member => by
    rw [List.eq_of_mem_replicate member]
    rfl

/-! ## Hexadecimal digits -/

theorem digit?_capital {value : Nat} (small : value < 16) :
    digit? 16 ("0123456789ABCDEF".toList.getD value '0') = some value := by
  have all : ∀ value : Fin 16,
      digit? 16 ("0123456789ABCDEF".toList.getD value '0') = some value.val := by decide
  exact all ⟨value, small⟩

/-- Hexadecimal digits spell what they hold of a number. -/
theorem continueNumber?_capitalHexadecimal (width number known : Nat) :
    continueNumber? 16 known (capitalHexadecimal width number).toList =
      some (known * 16 ^ width + number % 16 ^ width) := by
  simp only [capitalHexadecimal, hexadecimal, String.toList_ofList]
  induction width generalizing known with
  | zero =>
    rw [Nat.pow_zero, Nat.mul_one, Nat.mod_one]
    rfl
  | succ width ih =>
    have places : ∀ place, number / 16 ^ (width + 1 - 1 - (place + 1)) % 16 =
        number / 16 ^ (width - 1 - place) % 16 := by
      intro place
      congr 3
      omega
    rw [List.range_succ_eq_map, List.map_cons, List.map_map, continueNumber?,
      digit?_capital (Nat.mod_lt _ (by decide))]
    simp only [Function.comp_def, Nat.succ_eq_add_one, places]
    rw [ih, Nat.mod_pow_succ]
    simp only [Nat.add_sub_cancel, Nat.sub_zero, Nat.pow_succ]
    congr 1
    rw [Nat.add_mul, Nat.mul_assoc, Nat.mul_comm 16, Nat.mul_comm (16 ^ width) (_ % 16)]
    omega

theorem mem_capitalHexadecimal {width number : Nat} {digit : Char}
    (member : digit ∈ (capitalHexadecimal width number).toList) :
    digit ∈ "0123456789ABCDEF".toList := by
  rw [capitalHexadecimal, hexadecimal, String.toList_ofList] at member
  obtain ⟨place, -, rfl⟩ := List.mem_map.mp member
  have all : ∀ value : Fin 16,
      "0123456789ABCDEF".toList.getD value '0' ∈ "0123456789ABCDEF".toList := by decide
  exact all ⟨_, Nat.mod_lt _ (by decide)⟩

theorem length_capitalHexadecimal (width number : Nat) :
    (capitalHexadecimal width number).toList.length = width := by
  rw [capitalHexadecimal, hexadecimal, String.toList_ofList, List.length_map, List.length_range]

theorem ofDigits?_capitalHexadecimal {width number : Nat} (some : width ≠ 0)
    (fits : number < 16 ^ width) :
    ofDigits? 16 (capitalHexadecimal width number).toList = .some number := by
  have digits := continueNumber?_capitalHexadecimal width number 0
  rw [Nat.zero_mul, Nat.zero_add, Nat.mod_eq_of_lt fits] at digits
  cases written : (capitalHexadecimal width number).toList with
  | nil => exact absurd (length_capitalHexadecimal width number).symm (by rwa [written])
  | cons first rest =>
    rw [written] at digits
    exact digits

end PowerTest.Text
