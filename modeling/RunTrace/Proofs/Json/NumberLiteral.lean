import RunTrace.Json.Token
import RunTrace.Json.Writer
import RunTrace.Proofs.Decimal.Digits
import RunTrace.Proofs.Results

/-!
# Number literals, spelled, scanned and written

A number literal is scanned part by part, and each part ends where something else begins. So a
literal is scanned from each of its spellings if something follows that cannot belong to it, and
from nothing else. Only the mark of an exponent can be spelled in two ways.

## Main results

* `NumberLiteral.scan_of_spelledBy`: a literal is scanned from each of its spellings;
* `NumberLiteral.spelledBy_of_scan`: what is scanned as a literal is a spelling of it;
* `NumberLiteral.spelledBy_text`: what is written for a literal spells it.
-/

namespace RunTrace.Json.NumberLiteral

open Decimal

/-! ## Spellings -/

/-- The spellings of the part of a number from the point on. -/
inductive FractionSpelledBy : Option (List Char) → List Char → Prop
  | none : FractionSpelledBy none []
  | some {ds : List Char} (h : IsDigits ds) : FractionSpelledBy (some ds) ('.' :: ds)

/-- The spellings of the part of a number from the mark of the exponent on. -/
inductive ExponentSpelledBy : Option (ExponentSign × List Char) → List Char → Prop
  | none : ExponentSpelledBy none []
  | some {mark : Char} {sign : ExponentSign} {ds : List Char} (hmark : mark = 'e' ∨ mark = 'E')
      (h : IsDigits ds) : ExponentSpelledBy (some (sign, ds)) (mark :: (sign.text ++ ds))

/-- The spellings of a number literal behind its sign. -/
inductive UnsignedSpelledBy (literal : NumberLiteral) : List Char → Prop
  | mk {fraction exponent : List Char} (hwhole : IsDigits literal.whole)
      (hlead : ∀ ds, literal.whole = '0' :: ds → ds = [])
      (hfraction : FractionSpelledBy literal.fraction fraction)
      (hexponent : ExponentSpelledBy literal.exponent exponent) :
      UnsignedSpelledBy literal (literal.whole ++ (fraction ++ exponent))

/-- The spellings of a number literal. -/
inductive SpelledBy (literal : NumberLiteral) : List Char → Prop
  | mk {text : List Char} (h : literal.UnsignedSpelledBy text) :
      SpelledBy literal ((if literal.negative then ['-'] else []) ++ text)

/-! ## Scanning what is spelled -/

/-- A text does not begin with any of the characters that could continue a number. -/
def EndsNumber (rest : List Char) : Prop :=
  ∀ c ∈ rest.head?, c.isDigit = false ∧ c ≠ '.' ∧ c ≠ 'e' ∧ c ≠ 'E'

theorem scanDigits_append {ds rest : List Char} (h : IsDigits ds)
    (hrest : ∀ c ∈ rest.head?, c.isDigit = false) : scanDigits (ds ++ rest) = .ok (ds, rest) := by
  unfold scanDigits
  rw [takeWhile_digits h hrest, dropWhile_digits h hrest]
  obtain ⟨d, more, rfl⟩ := List.exists_cons_of_ne_nil h.ne_nil
  rfl

theorem scanWhole_append {ds rest : List Char} (h : IsDigits ds)
    (hlead : ∀ more, ds = '0' :: more → more = [])
    (hrest : ∀ c ∈ rest.head?, c.isDigit = false) : scanWhole (ds ++ rest) = .ok (ds, rest) := by
  unfold scanWhole
  rw [scanDigits_append h hrest]
  -- Digits that go on behind a zero are an error, and there are none.
  split
  · next d more text heq =>
    have := hlead (d :: more) (Prod.mk.inj (Except.ok.inj heq)).1
    contradiction
  · rfl

theorem scanFraction_none {rest : List Char} (h : ∀ c ∈ rest.head?, c ≠ '.') :
    scanFraction rest = .ok (none, rest) := by
  unfold scanFraction
  split
  · exact absurd rfl (h '.' rfl)
  · rfl

theorem scanFraction_some {ds rest : List Char} (h : IsDigits ds)
    (hrest : ∀ c ∈ rest.head?, c.isDigit = false) :
    scanFraction ('.' :: (ds ++ rest)) = .ok (some ds, rest) := by
  simp [scanFraction, scanDigits_append h hrest, bind, Except.bind, pure, Except.pure]

theorem scanExponentSign_append (sign : ExponentSign) {ds : List Char} (h : IsDigits ds)
    (rest : List Char) : scanExponentSign (sign.text ++ (ds ++ rest)) = (sign, ds ++ rest) := by
  cases sign with
  | plus => rfl
  | minus => rfl
  | none =>
    -- Without a sign, a digit follows at once.
    obtain ⟨c, more, rfl⟩ := List.exists_cons_of_ne_nil h.ne_nil
    have hc := h.digit c (List.mem_cons_self ..)
    simp only [ExponentSign.text, List.nil_append, List.cons_append]
    unfold scanExponentSign
    split
    · next heq =>
      obtain rfl := (List.cons.inj heq).1
      exact absurd hc (by decide)
    · next heq =>
      obtain rfl := (List.cons.inj heq).1
      exact absurd hc (by decide)
    · rfl

theorem scanExponent_none {rest : List Char} (h : ∀ c ∈ rest.head?, c ≠ 'e' ∧ c ≠ 'E') :
    scanExponent rest = .ok (none, rest) := by
  unfold scanExponent
  dsimp only
  split
  · exact absurd rfl (h 'e' rfl).1
  · exact absurd rfl (h 'E' rfl).2
  · rfl

theorem scanExponent_some (sign : ExponentSign) {ds rest : List Char} (h : IsDigits ds)
    (hrest : ∀ c ∈ rest.head?, c.isDigit = false) :
    scanExponent ('e' :: (sign.text ++ (ds ++ rest))) = .ok (some (sign, ds), rest) := by
  simp [scanExponent, scanExponentSign_append sign h, scanDigits_append h hrest, bind,
    Except.bind, pure, Except.pure]

section

variable {text rest : List Char}

/-- Neither a digit nor a point stands behind the fraction. -/
theorem ExponentSpelledBy.head {exponent : Option (ExponentSign × List Char)}
    (h : ExponentSpelledBy exponent text) (hrest : EndsNumber rest) :
    ∀ c ∈ (text ++ rest).head?, c.isDigit = false ∧ c ≠ '.' := by
  cases h with
  | none => exact fun c hc => ⟨(hrest c hc).1, (hrest c hc).2.1⟩
  | @some mark sign ds hmark _ =>
    intro c hc
    obtain rfl : mark = c := Option.some.inj hc
    rcases hmark with rfl | rfl <;> decide

/-- No digit stands behind the whole part. -/
theorem FractionSpelledBy.head {fraction : Option (List Char)}
    (h : FractionSpelledBy fraction text)
    (hrest : ∀ c ∈ rest.head?, c.isDigit = false ∧ c ≠ '.') :
    ∀ c ∈ (text ++ rest).head?, c.isDigit = false := by
  cases h with
  | none => exact fun c hc => (hrest c hc).1
  | some _ =>
    intro c hc
    obtain rfl : '.' = c := Option.some.inj hc
    rfl

theorem scanExponent_of_spelledBy {exponent : Option (ExponentSign × List Char)}
    (h : ExponentSpelledBy exponent text) (hrest : EndsNumber rest) :
    scanExponent (text ++ rest) = .ok (exponent, rest) := by
  cases h with
  | none => exact scanExponent_none fun c hc => (hrest c hc).2.2
  | @some mark sign ds hmark hdigits =>
    have hscan := scanExponent_some sign hdigits fun c hc => (hrest c hc).1
    rw [List.cons_append, List.append_assoc]
    -- What stands behind the mark is scanned in the same way for both of them.
    rcases hmark with rfl | rfl <;> exact hscan

theorem scanFraction_of_spelledBy {fraction : Option (List Char)}
    (h : FractionSpelledBy fraction text)
    (hrest : ∀ c ∈ rest.head?, c.isDigit = false ∧ c ≠ '.') :
    scanFraction (text ++ rest) = .ok (fraction, rest) := by
  cases h with
  | none => exact scanFraction_none fun c hc => (hrest c hc).2
  | some hdigits => exact scanFraction_some hdigits fun c hc => (hrest c hc).1

/-- A number literal is scanned from each of its spellings, behind its sign. -/
theorem scan_of_spelledBy {literal : NumberLiteral} (h : literal.UnsignedSpelledBy text)
    (hrest : EndsNumber rest) : scan literal.negative (text ++ rest) = .ok (literal, rest) := by
  obtain ⟨hwhole, hlead, hfraction, hexponent⟩ := h
  -- Each part ends where the next one begins, or else where the number does.
  have hhead := hexponent.head hrest
  rw [List.append_assoc, List.append_assoc, scan,
    scanWhole_append hwhole hlead (hfraction.head hhead)]
  simp only [bind, Except.bind, scanFraction_of_spelledBy hfraction hhead,
    scanExponent_of_spelledBy hexponent hrest]
  rfl

/-- A digit is no blank, and begins a number. -/
theorem scanToken_of_isDigit {c : Char} (h : c.isDigit = true) (more : List Char) :
    isBlank c = false ∧ Token.scan c more = Token.scanNumber false (c :: more) := by
  have hne : ∀ d : Char, d.isDigit = false → c ≠ d := by
    rintro d hd rfl
    rw [h] at hd
    contradiction
  constructor
  · simp [isBlank, hne]
  · unfold Token.scan
    -- The characters that begin other tokens are no digits.
    split
    case h_12 => rw [if_pos h]
    all_goals exact absurd rfl (hne _ (by decide))

/-! ## Spelling what is scanned -/

theorem isDigits_of_scanDigits {ds : List Char} (h : scanDigits text = .ok (ds, rest)) :
    IsDigits ds ∧ text = ds ++ rest := by
  unfold scanDigits at h
  split at h
  · cases h
  · next hne =>
    cases h
    refine ⟨⟨hne, fun c hc => ?_⟩, (List.takeWhile_append_dropWhile ..).symm⟩
    exact List.all_eq_true.1 List.all_takeWhile c hc

theorem isDigits_of_scanWhole {ds : List Char} (h : scanWhole text = .ok (ds, rest)) :
    (IsDigits ds ∧ ∀ more, ds = '0' :: more → more = []) ∧ text = ds ++ rest := by
  unfold scanWhole at h
  split at h
  · cases h
  · next hlone =>
    obtain ⟨hdigits, htext⟩ := isDigits_of_scanDigits h
    refine ⟨⟨hdigits, ?_⟩, htext⟩
    rintro (_ | ⟨d, more⟩) rfl
    · rfl
    · exact absurd h (hlone d more rest)

theorem spelledBy_of_scanFraction {fraction : Option (List Char)}
    (h : scanFraction text = .ok (fraction, rest)) :
    ∃ front, FractionSpelledBy fraction front ∧ text = front ++ rest := by
  unfold scanFraction at h
  split at h
  · next more =>
    obtain ⟨⟨ds, after⟩, hscan, h⟩ := bind_eq_ok.1 h
    cases h
    obtain ⟨hdigits, rfl⟩ := isDigits_of_scanDigits hscan
    exact ⟨'.' :: ds, .some hdigits, rfl⟩
  · cases h
    exact ⟨[], .none, rfl⟩

theorem text_append_of_scanExponentSign {sign : ExponentSign}
    (h : scanExponentSign text = (sign, rest)) : text = sign.text ++ rest := by
  unfold scanExponentSign at h
  split at h <;> cases h <;> rfl

theorem spelledBy_of_scanExponent {exponent : Option (ExponentSign × List Char)}
    (h : scanExponent text = .ok (exponent, rest)) :
    ∃ front, ExponentSpelledBy exponent front ∧ text = front ++ rest := by
  -- Behind a mark there is a sign, if any, and digits.
  have marked : ∀ {mark : Char} {more : List Char}, mark = 'e' ∨ mark = 'E' →
      scanExponent ('e' :: more) = .ok (exponent, rest) →
      ∃ front, ExponentSpelledBy exponent front ∧ mark :: more = front ++ rest := by
    intro mark more hmark h
    obtain ⟨⟨ds, after⟩, hscan, h⟩ := bind_eq_ok.1 h
    cases h
    obtain ⟨hdigits, htext⟩ := isDigits_of_scanDigits hscan
    refine ⟨_, .some hmark hdigits, ?_⟩
    rw [List.cons_append, List.append_assoc, ← htext]
    exact congrArg _ (text_append_of_scanExponentSign rfl)
  unfold scanExponent at h
  dsimp only at h
  split at h
  · exact marked (.inl rfl) h
  · exact marked (.inr rfl) h
  · cases h
    exact ⟨[], .none, rfl⟩

/-- What is scanned as a number literal behind its sign is a spelling of it. -/
theorem spelledBy_of_scan {negative : Bool} {literal : NumberLiteral}
    (h : scan negative text = .ok (literal, rest)) :
    literal.negative = negative ∧
      ∃ front, literal.UnsignedSpelledBy front ∧ text = front ++ rest := by
  obtain ⟨⟨whole, rest₁⟩, hwhole, h⟩ := bind_eq_ok.1 h
  obtain ⟨⟨fraction, rest₂⟩, hfraction, h⟩ := bind_eq_ok.1 h
  obtain ⟨⟨exponent, rest₃⟩, hexponent, h⟩ := bind_eq_ok.1 h
  cases h
  obtain ⟨⟨hdigits, hlead⟩, rfl⟩ := isDigits_of_scanWhole hwhole
  obtain ⟨front₁, hfront₁, rfl⟩ := spelledBy_of_scanFraction hfraction
  obtain ⟨front₂, hfront₂, rfl⟩ := spelledBy_of_scanExponent hexponent
  refine ⟨rfl, _, .mk hdigits hlead hfront₁ hfront₂, ?_⟩
  rw [List.append_assoc, List.append_assoc]

end

/-! ## Writing -/

/-- A literal that follows the grammar of numbers. -/
structure Spellable (literal : NumberLiteral) : Prop where
  whole : IsDigits literal.whole
  /-- A zero in front is the only digit. -/
  lead : ∀ ds, literal.whole = '0' :: ds → ds = []
  fraction : ∀ ds ∈ literal.fraction, IsDigits ds
  exponent : ∀ e ∈ literal.exponent, IsDigits e.2

/-- The part of a spelling from the point on. -/
def fractionText (literal : NumberLiteral) : List Char :=
  literal.fraction.elim [] fun ds => '.' :: ds

/-- The part of a spelling from the mark of the exponent on. -/
def exponentText (literal : NumberLiteral) : List Char :=
  literal.exponent.elim [] fun (sign, ds) => 'e' :: sign.text ++ ds

/-- The spelling of a literal behind its sign. -/
def unsignedText (literal : NumberLiteral) : List Char :=
  literal.whole ++ literal.fractionText ++ literal.exponentText

theorem text_eq (literal : NumberLiteral) :
    literal.text = (if literal.negative then ['-'] else []) ++ literal.unsignedText := by
  rw [text, unsignedText, ← List.append_assoc, ← List.append_assoc]
  rfl

/-- What is written for a literal spells it. -/
theorem spelledBy_text {literal : NumberLiteral} (h : literal.Spellable) :
    literal.SpelledBy literal.text := by
  have hfraction : FractionSpelledBy literal.fraction literal.fractionText := by
    unfold fractionText
    cases hds : literal.fraction with
    | none => exact .none
    | some ds => exact .some (h.fraction ds hds)
  have hexponent : ExponentSpelledBy literal.exponent literal.exponentText := by
    unfold exponentText
    cases he : literal.exponent with
    | none => exact .none
    | some e => exact .some (.inl rfl) (h.exponent e he)
  rw [text_eq, unsignedText, List.append_assoc]
  exact .mk (.mk h.whole h.lead hfraction hexponent)

end RunTrace.Json.NumberLiteral
