import RunTrace.Decimal.Basic

/-!
# Doubles by scaling

A quick way to make a decimal number a double. The digits are taken over into a 64-bit word as
long as there is room, the word is made a double, and this is scaled by a power of ten. Each step
is rounded to the nearest double, so the result can differ from the double nearest to the number
in its last bits, and a number just below the largest double can become infinite.
-/

namespace RunTrace.Decimal

/-- Takes over digits behind the number `n` as long as the number is a 64-bit word. Returns the
number with them, and the digits that are left. -/
def takeDigits (n : Nat) : List Char → Nat × List Char
  | [] => (n, [])
  | c :: rest =>
    let next := 10 * n + (c.toNat - '0'.toNat)
    if next < UInt64.size then takeDigits next rest else (n, c :: rest)

/-- The double nearest to a power of ten; infinite if it is too large. -/
def powerOfTen (e : Nat) : Float :=
  (⟨1, e⟩ : Decimal).toFloat

/-- The exponent of the largest power of ten that has a finite double. -/
def maxPower : Nat := 308

/-- The double of a coefficient, scaled by a power of ten. It is divided at most twice, as only
zero is left behind two divisions by the largest powers. -/
def scaled (d : Decimal) : Float :=
  let x := (⟨d.coefficient, 0⟩ : Decimal).toFloat
  match d.exponent with
  | .ofNat e => if d.coefficient = 0 then x else x * powerOfTen e
  | .negSucc e =>
    if e < maxPower then x / powerOfTen (e + 1)
    else x / powerOfTen maxPower / powerOfTen (e + 1 - maxPower)

end RunTrace.Decimal
