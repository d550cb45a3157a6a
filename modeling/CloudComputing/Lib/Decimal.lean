import CloudComputing.Lib.Bytes

/-!
# Decimal numbers in byte strings

`std::to_string` on one side and `strtol` / `atoi` on the other.  Printing
uses the digit lists of the core library; reading follows the C functions:
leading white space, an optional sign, digits up to the first other byte, and
a result clamped to the range of a 64-bit `long`.
-/

namespace CloudComputing
namespace Decimal

/-- `std::to_string` of an unsigned number. -/
def toDecimal (number : Nat) : Bytes :=
  (Nat.toDigits 10 number).map Char.toUInt8

/-- `std::to_string` of a signed number. -/
def intToDecimal : Int → Bytes
  | .ofNat number => toDecimal number
  | .negSucc number => str "-" ++ toDecimal (number + 1)

/-- An ASCII digit. -/
def isDigit (byte : UInt8) : Bool :=
  48 ≤ byte && byte ≤ 57

/-- White space skipped by `strtol`. -/
def isSpace (byte : UInt8) : Bool :=
  byte = 32 || (9 ≤ byte && byte ≤ 13)

/-- Value of the leading digits of a text, continuing from `sofar`. -/
def digitsFrom (sofar : Nat) : Bytes → Nat
  | [] => sofar
  | byte :: rest =>
      if isDigit byte then digitsFrom (10 * sofar + (byte.toNat - 48)) rest
      else sofar

/-- Largest 64-bit `long`. -/
def longMax : Int := 2 ^ 63 - 1

/-- Smallest 64-bit `long`. -/
def longMin : Int := -(2 ^ 63)

/-- Clamp to the range of `long`, as `strtol` does on overflow. -/
def clampLong (number : Int) : Int :=
  max longMin (min longMax number)

/-- `strtol(text, nullptr, 10)`; the end of the list is the terminating NUL. -/
def strtol (text : Bytes) : Int :=
  match text.dropWhile isSpace with
  | 45 :: rest => clampLong (-(digitsFrom 0 rest : Int))
  | 43 :: rest => clampLong (digitsFrom 0 rest)
  | rest => clampLong (digitsFrom 0 rest)

/-- Conversion to a 32-bit `int`. -/
def toInt32 (number : Int) : Int :=
  number.bmod (2 ^ 32)

/-- Conversion to a 64-bit unsigned number. -/
def toUInt64 (number : Int) : Nat :=
  (number % 2 ^ 64).toNat

/-- `atoi`, which is `(int) strtol(text, nullptr, 10)`. -/
def atoi (text : Bytes) : Int :=
  toInt32 (strtol text)

/-! ## Printed numbers consist of digits -/

theorem isDigit_digitChar
    {digit : Nat}
    (small : digit < 10) :
    isDigit digit.digitChar.toUInt8 = true := by
  interval_cases digit <;> decide

theorem toNat_digitChar
    {digit : Nat}
    (small : digit < 10) :
    digit.digitChar.toUInt8.toNat - 48 = digit := by
  interval_cases digit <;> decide

theorem toDecimal_of_lt_ten
    {number : Nat}
    (small : number < 10) :
    toDecimal number = [number.digitChar.toUInt8] := by
  simp [toDecimal, Nat.toDigits_of_lt_base small]

theorem toDecimal_of_ten_le
    {number : Nat}
    (large : 10 ≤ number) :
    toDecimal number =
      toDecimal (number / 10) ++ [(number % 10).digitChar.toUInt8] := by
  simp [toDecimal, Nat.toDigits_of_base_le (b := 10) (by omega) large]

theorem isDigit_of_mem_toDecimal
    {number : Nat}
    {byte : UInt8}
    (member : byte ∈ toDecimal number) :
    isDigit byte = true := by
  induction number using Nat.strongRecOn with
  | ind number inductionHypothesis =>
      by_cases small : number < 10
      · rw [toDecimal_of_lt_ten small, List.mem_singleton] at member
        rw [member]
        exact isDigit_digitChar small
      · rw [toDecimal_of_ten_le (by omega), List.mem_append,
          List.mem_singleton] at member
        rcases member with member | member
        · exact inductionHypothesis (number / 10) (by omega) member
        · rw [member]
          exact isDigit_digitChar (by omega)

theorem toDecimal_ne_nil (number : Nat) : toDecimal number ≠ [] := by
  simp [toDecimal, Nat.toDigits_ne_nil]

/-- Larger numbers are not printed shorter. -/
theorem length_toDecimal_mono
    {number other : Nat}
    (ordered : number ≤ other) :
    (toDecimal number).length ≤ (toDecimal other).length := by
  have positive : 0 < (toDecimal other).length :=
    List.length_pos_iff.mpr (toDecimal_ne_nil other)
  simp only [toDecimal, List.length_map] at positive ⊢
  have bound := (Nat.length_toDigits_le_iff (n := other) (by omega)
    positive).mp le_rfl
  exact (Nat.length_toDigits_le_iff (by omega) positive).mpr
    (Nat.lt_of_le_of_lt ordered bound)

/-- A byte that is not a digit does not occur in a printed number. -/
theorem not_mem_toDecimal
    {number : Nat}
    {byte : UInt8}
    (notDigit : isDigit byte = false) :
    byte ∉ toDecimal number := by
  intro member
  rw [isDigit_of_mem_toDecimal member] at notDigit
  exact Bool.noConfusion notDigit

/-! ## Reading back a printed number -/

theorem digitsFrom_append_digits
    (digits rest : Bytes)
    (allDigits : ∀ byte ∈ digits, isDigit byte = true)
    (sofar : Nat) :
    digitsFrom sofar (digits ++ rest) =
      digitsFrom (digitsFrom sofar digits) rest := by
  induction digits generalizing sofar with
  | nil => rfl
  | cons byte digits inductionHypothesis =>
      have isHead : isDigit byte = true := allDigits byte (by simp)
      simp only [List.cons_append, digitsFrom, isHead, if_true]
      exact inductionHypothesis
        (fun other member => allDigits other (List.mem_cons_of_mem byte member))
        _

/-- The digits of a printed number read back as that number. -/
theorem digitsFrom_toDecimal (number : Nat) :
    digitsFrom 0 (toDecimal number) = number := by
  induction number using Nat.strongRecOn with
  | ind number inductionHypothesis =>
      by_cases small : number < 10
      · rw [toDecimal_of_lt_ten small]
        simp [digitsFrom, isDigit_digitChar small, toNat_digitChar small]
      · have lastSmall : number % 10 < 10 := Nat.mod_lt number (by omega)
        rw [toDecimal_of_ten_le (by omega),
          digitsFrom_append_digits _ _
            (fun _ member => isDigit_of_mem_toDecimal member),
          inductionHypothesis (number / 10) (by omega)]
        simp only [digitsFrom, isDigit_digitChar lastSmall, if_true,
          toNat_digitChar lastSmall]
        omega

/-- The rest of a text starts with no digit, so a number before it ends
there. -/
def EndsNumber (rest : Bytes) : Prop :=
  ∀ byte ∈ rest.head?, isDigit byte = false

theorem EndsNumber.nil : EndsNumber [] := by
  simp [EndsNumber]

theorem EndsNumber.cons
    {byte : UInt8}
    (notDigit : isDigit byte = false)
    (rest : Bytes) :
    EndsNumber (byte :: rest) := by
  simpa [EndsNumber] using notDigit

theorem digitsFrom_toDecimal_append
    (number : Nat)
    {rest : Bytes}
    (ends : EndsNumber rest) :
    digitsFrom 0 (toDecimal number ++ rest) = number := by
  rw [digitsFrom_append_digits _ _
    (fun _ member => isDigit_of_mem_toDecimal member),
    digitsFrom_toDecimal]
  cases rest with
  | nil => rfl
  | cons byte rest =>
      have notDigit : isDigit byte = false := ends byte (by simp)
      simp [digitsFrom, notDigit]

/-- A digit is neither white space nor a sign, so `strtol` starts with it. -/
theorem strtol_of_digit_head
    {byte : UInt8}
    (digit : isDigit byte = true)
    (rest : Bytes) :
    strtol (byte :: rest) = clampLong (digitsFrom 0 (byte :: rest)) := by
  have bounds : 48 ≤ byte ∧ byte ≤ 57 := by
    simpa [isDigit] using digit
  have lower : 48 ≤ byte.toNat := UInt8.le_iff_toNat_le.mp bounds.1
  have different : ∀ other : UInt8, other.toNat < 48 → byte ≠ other := by
    intro other below equal
    rw [equal] at lower
    omega
  have notSpace : isSpace byte = false := by
    have upper : ¬ byte ≤ 13 := by
      intro below
      have := UInt8.le_iff_toNat_le.mp below
      simp at this
      omega
    simp [isSpace, different 32 (by decide), upper]
  have notMinus : byte ≠ 45 := different 45 (by decide)
  have notPlus : byte ≠ 43 := different 43 (by decide)
  rw [strtol, List.dropWhile_cons_of_neg (by simp [notSpace])]
  split
  · rename_i equal
    exact absurd (List.cons.inj equal).1 notMinus
  · rename_i equal
    exact absurd (List.cons.inj equal).1 notPlus
  · rfl

/-- A number printed in front of a non-digit is read back, clamped. -/
theorem strtol_toDecimal_append
    (number : Nat)
    {rest : Bytes}
    (ends : EndsNumber rest) :
    strtol (toDecimal number ++ rest) = min longMax number := by
  have value := digitsFrom_toDecimal_append number ends
  obtain ⟨byte, digits, printed⟩ :=
    List.exists_cons_of_ne_nil (toDecimal_ne_nil number)
  have digit : isDigit byte = true :=
    isDigit_of_mem_toDecimal
      (show byte ∈ toDecimal number by simp [printed])
  rw [printed, List.cons_append] at value ⊢
  rw [strtol_of_digit_head digit, value, clampLong]
  exact max_eq_right (by simp only [longMin, longMax]; omega)

theorem strtol_toDecimal
    (number : Nat) :
    strtol (toDecimal number) = min longMax number := by
  simpa using strtol_toDecimal_append number EndsNumber.nil

/-- Numbers below `2 ^ 63` are read back exactly. -/
theorem strtol_toDecimal_append_of_lt
    {number : Nat}
    (small : number < 2 ^ 63)
    {rest : Bytes}
    (ends : EndsNumber rest) :
    strtol (toDecimal number ++ rest) = number := by
  rw [strtol_toDecimal_append number ends]
  exact min_eq_right (by simp only [longMax]; omega)

/-- A non-negative 32-bit number is unchanged by the conversion to `int`. -/
theorem toInt32_of_lt
    {number : Nat}
    (small : number < 2 ^ 31) :
    toInt32 number = number := by
  simp only [toInt32, Int.bmod]
  omega

/-- `atoi` reads back a printed 31-bit number. -/
theorem atoi_toDecimal_append
    {number : Nat}
    (small : number < 2 ^ 31)
    {rest : Bytes}
    (ends : EndsNumber rest) :
    atoi (toDecimal number ++ rest) = number := by
  rw [atoi, strtol_toDecimal_append_of_lt (by omega) ends, toInt32_of_lt small]

@[simp] theorem intToDecimal_natCast (number : Nat) :
    intToDecimal number = toDecimal number := rfl

/-- Negative numbers are printed with a minus sign and read back, clamped. -/
theorem strtol_negSucc_append
    (number : Nat)
    {rest : Bytes}
    (ends : EndsNumber rest) :
    strtol (intToDecimal (.negSucc number) ++ rest) =
      clampLong (.negSucc number) := by
  have text : intToDecimal (.negSucc number) ++ rest =
      45 :: (toDecimal (number + 1) ++ rest) := by rfl
  have noSpace : (45 :: (toDecimal (number + 1) ++ rest)).dropWhile isSpace =
      45 :: (toDecimal (number + 1) ++ rest) :=
    List.dropWhile_cons_of_neg (by decide)
  rw [text, strtol, noSpace]
  simp only [digitsFrom_toDecimal_append (number + 1) ends]
  rfl

/-- `atoi` reads back every printed `int`. -/
theorem atoi_intToDecimal_append
    {number : Int}
    (lower : -2 ^ 31 ≤ number)
    (upper : number < 2 ^ 31)
    {rest : Bytes}
    (ends : EndsNumber rest) :
    atoi (intToDecimal number ++ rest) = number := by
  cases number with
  | ofNat number =>
      have small : number < 2 ^ 31 := by
        simp only [Int.ofNat_eq_natCast] at upper
        omega
      exact atoi_toDecimal_append small ends
  | negSucc number =>
      have inRange : clampLong (.negSucc number) = .negSucc number := by
        simp only [clampLong, longMin, longMax]
        omega
      rw [atoi, strtol_negSucc_append number ends, inRange]
      simp only [toInt32, Int.bmod]
      omega

end Decimal
end CloudComputing
