import RunTrace.Decimal.Basic

/-!
# Reading words

A 32-bit word is written in decimal digits, with or without a plus sign in front. The digits are
read in order: the first one that is no digit, or with which the word is too large, is the error.
-/

namespace RunTrace.Decimal

/-- Why a text is no 32-bit word. -/
inductive WordError where
  | empty
  | invalidDigit
  | tooLarge
  deriving DecidableEq, Repr

namespace WordError

/-- The text shown for an error. -/
def message : WordError → String
  | empty => "cannot parse integer from empty string"
  | invalidDigit => "invalid digit found in string"
  | tooLarge => "number too large to fit in target type"

end WordError

/-- Reads further digits of a 32-bit word, of which `n` is read. -/
def readDigits (n : Nat) : List Char → Except WordError Nat
  | [] => .ok n
  | c :: rest =>
    if !c.isDigit then .error .invalidDigit
    else
      let n := 10 * n + (c.toNat - '0'.toNat)
      if UInt32.size ≤ n then .error .tooLarge else readDigits n rest

/-- Reads a 32-bit word. -/
def readWord (text : String) : Except WordError UInt32 :=
  match text.toList with
  | [] => .error .empty
  | ['+'] => .error .invalidDigit
  | '+' :: digits => UInt32.ofNat <$> readDigits 0 digits
  | digits => UInt32.ofNat <$> readDigits 0 digits

end RunTrace.Decimal
