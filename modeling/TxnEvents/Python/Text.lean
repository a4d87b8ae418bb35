import Mathlib.Data.List.Basic
import Mathlib.Data.List.Infix

/-!
# Text operations of the language

The parts of `str` and `int` that the program uses on text it does not
control: upper-casing, `repr`, substring search and the conversion to an
integer.  What Unicode says about single characters is a parameter.
-/

namespace Python

/-- Per-character Unicode data. -/
structure UnicodeData where
  /-- The upper-case mapping, which may have several characters. -/
  upperMapping : Char → List Char
  decimalDigit : Char → Option Nat
  /-- The white space that `int` strips. -/
  isSpace : Char → Bool
  isPrintable : Char → Bool
  /-- Upper-case mappings are upper-case. -/
  upperMapping_upper : ∀ letter,
    (upperMapping letter).flatMap upperMapping = upperMapping letter
  decimalDigit_ascii : ∀ value < 10,
    decimalDigit (Nat.digitChar value) = some value
  digit_not_space : ∀ letter,
    (decimalDigit letter).isSome → isSpace letter = false

/-- `text.upper()`. -/
def upper (unicode : UnicodeData) (text : String) : String :=
  String.ofList (text.toList.flatMap unicode.upperMapping)

@[simp]
theorem upper_upper (unicode : UnicodeData) (text : String) :
    upper unicode (upper unicode text) = upper unicode text := by
  simp only [upper, String.toList_ofList, List.flatMap_assoc,
    unicode.upperMapping_upper]

/-- `needle in text`. -/
def contains (text needle : String) : Bool :=
  decide (needle.toList <:+: text.toList)

/-! ## ASCII -/

def asciiUpper (letter : Char) : Char :=
  if 97 ≤ letter.toNat ∧ letter.toNat ≤ 122 then Char.ofNat (letter.toNat - 32)
  else letter

theorem asciiUpper_asciiUpper (letter : Char) :
    asciiUpper (asciiUpper letter) = asciiUpper letter := by
  by_cases lower : 97 ≤ letter.toNat ∧ letter.toNat ≤ 122
  · have raised : asciiUpper letter = Char.ofNat (letter.toNat - 32) :=
      if_pos lower
    have code : (Char.ofNat (letter.toNat - 32)).toNat = letter.toNat - 32 := by
      have valid : (letter.toNat - 32).isValidChar := by
        left
        omega
      rw [Char.ofNat, dif_pos valid]
      exact UInt32.toNat_ofNatLT
    rw [raised, asciiUpper, if_neg]
    omega
  · have same : asciiUpper letter = letter := if_neg lower
    rw [same, same]

/-- The Unicode data of ASCII, with every other character left alone. -/
def UnicodeData.ascii : UnicodeData where
  upperMapping letter := [asciiUpper letter]
  decimalDigit letter :=
    if 48 ≤ letter.toNat ∧ letter.toNat ≤ 57 then some (letter.toNat - 48)
    else none
  isSpace letter :=
    (9 ≤ letter.toNat ∧ letter.toNat ≤ 13) ∨ letter.toNat = 32
  isPrintable letter := 32 ≤ letter.toNat ∧ letter.toNat < 127
  upperMapping_upper := by
    intro letter
    simp [asciiUpper_asciiUpper]
  decimalDigit_ascii := by decide
  digit_not_space := by
    intro letter digit
    by_cases numeric : 48 ≤ letter.toNat ∧ letter.toNat ≤ 57
    · simp only [decide_eq_false_iff_not]
      omega
    · simp [numeric] at digit

/-! ## `repr` -/

private def hexadecimal (width : Nat) (letter : Char) : List Char :=
  let digits := Nat.toDigits 16 letter.toNat
  List.replicate (width - digits.length) '0' ++ digits

/-- One character of a string literal delimited by `quote`. -/
def escaped (unicode : UnicodeData) (quote letter : Char) : List Char :=
  if letter = quote ∨ letter = '\\' then ['\\', letter]
  else if letter = '\t' then ['\\', 't']
  else if letter = '\n' then ['\\', 'n']
  else if letter = '\r' then ['\\', 'r']
  else if unicode.isPrintable letter then [letter]
  else if letter.toNat < 0x100 then '\\' :: 'x' :: hexadecimal 2 letter
  else if letter.toNat < 0x10000 then '\\' :: 'u' :: hexadecimal 4 letter
  else '\\' :: 'U' :: hexadecimal 8 letter

/-- `repr(text)`: single quotes, unless the text has only those. -/
def repr (unicode : UnicodeData) (text : String) : String :=
  let quote :=
    if contains text "'" = true ∧ contains text "\"" = false then '\"'
    else Char.ofNat 39
  String.ofList
    (quote :: text.toList.flatMap (escaped unicode quote) ++ [quote])

/-! ## `int` -/

/-- The values of decimal digits with single underscores between them. -/
def digitRun (unicode : UnicodeData) : Bool → List Char → Option (List Nat)
  | true, [] => some []
  | false, [] => none
  | afterDigit, letter :: rest =>
      match unicode.decimalDigit letter with
      | some value => (digitRun unicode true rest).map (value :: ·)
      | none =>
          if letter = '_' ∧ afterDigit = true then digitRun unicode false rest
          else none

/-- Remove white space from both ends. -/
def strip (unicode : UnicodeData) (letters : List Char) : List Char :=
  ((letters.dropWhile unicode.isSpace).reverse.dropWhile
    unicode.isSpace).reverse

/-- The sign and the digits of an integer literal. -/
def signedDigits (unicode : UnicodeData) (letters : List Char) :
    Option (Bool × List Nat) :=
  match strip unicode letters with
  | '-' :: rest => (digitRun unicode false rest).map (true, ·)
  | '+' :: rest => (digitRun unicode false rest).map (false, ·)
  | rest => (digitRun unicode false rest).map (false, ·)

/-- Longer literals are refused. -/
def maxDigits : Nat := 4300

/-- `int(text)`, or the text of the `ValueError`. -/
def int (unicode : UnicodeData) (text : String) : Except String Int :=
  match signedDigits unicode text.toList with
  | none =>
      .error
        ("invalid literal for int() with base 10: " ++ repr unicode text)
  | some (negative, digits) =>
      if maxDigits < digits.length then
        .error
          ("Exceeds the limit (4300 digits) for integer string conversion: " ++
            "value has " ++ toString digits.length ++
            " digits; use sys.set_int_max_str_digits() to increase the limit")
      else
        let magnitude : Nat := digits.foldl (fun total digit => 10 * total + digit) 0
        .ok (if negative then -magnitude else magnitude)

/-- The literal `"1"` is one. -/
theorem int_one (unicode : UnicodeData) : int unicode "1" = .ok 1 := by
  have digit : unicode.decimalDigit '1' = some 1 :=
    unicode.decimalDigit_ascii 1 (by decide)
  have visible : unicode.isSpace '1' = false :=
    unicode.digit_not_space '1' (by simp [digit])
  have stripped : strip unicode ['1'] = ['1'] := by
    simp [strip, visible]
  have parsed : signedDigits unicode "1".toList = some (false, [1]) := by
    change signedDigits unicode ['1'] = some (false, [1])
    simp [signedDigits, stripped, digitRun, digit]
  unfold int
  rw [parsed]
  rfl

end Python
