import RunTrace.Decimal.Basic

/-!
# The shortest decimal that reads back

Among the decimal numbers that have a given double as their nearest one, those with the fewest
significant digits are preferred, and of these the one closest to the double. If two are equally
close, a rule for ties decides.
-/

namespace RunTrace.Decimal

/-- The two decimal numbers with at most `n` significant digits on either side of `d`, the
closer one first. A number that has at most `n` digits is its own neighbour. -/
def neighbours (tie : Tie) (d : Decimal) (n : Nat) : List Decimal :=
  let dropped := (digits d.coefficient).length - n
  let unit := Nat.pow 10 dropped
  let q := d.coefficient / unit
  let below : Decimal := ⟨q, d.exponent + dropped⟩
  let above : Decimal := ⟨q + 1, d.exponent + dropped⟩
  if dropped = 0 then [d]
  else if tie.roundsUp q (d.coefficient % unit) unit then [above, below]
  else [below, above]

/-- Whether the double nearest to `d` is `x`, a double that is not negative. -/
def readsBackAs (d : Decimal) (x : Float) : Bool :=
  d.toFloat.toBits == x.toBits

/-- The shortest decimal number that reads back as the magnitude of a finite double. The
search ends at the latest with the number of digits that the double has itself. -/
def shortest (tie : Tie) (x : Float) : Decimal :=
  let exact := ofFloat x
  let counts := (List.range (digits exact.coefficient).length).map (· + 1)
  (counts.findSome? fun n => (neighbours tie exact n).find? (readsBackAs · x.abs)).getD exact

end RunTrace.Decimal
