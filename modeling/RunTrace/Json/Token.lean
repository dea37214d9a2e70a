import RunTrace.Json.Basic

/-!
# JSON tokens

The lexical grammar of JSON: a text is a sequence of tokens with blanks between them. The
token sequence ends with the first token that is broken. Every scanner returns the rest of
the text, which is never longer than what it was given.
-/

namespace RunTrace.Json

/-- The blanks that may stand between tokens. -/
def isBlank (c : Char) : Bool :=
  c = ' ' || c = '\t' || c = '\n' || c = '\r'

/-- A token of a JSON text. -/
inductive Token where
  | openArray
  | closeArray
  | openObject
  | closeObject
  | comma
  | colon
  | null
  | boolean (value : Bool)
  | number (literal : NumberLiteral)
  | string (literal : StringLiteral)
  /-- The text breaks off here: no token can be read. -/
  | broken (tear : Tear)

/-! ## String literals -/

/-- The value of a hexadecimal digit of either case. -/
def hexDigit? (c : Char) : Option UInt16 :=
  if '0' ≤ c ∧ c ≤ '9' then some (c.toNat - '0'.toNat).toUInt16
  else if 'a' ≤ c ∧ c ≤ 'f' then some (c.toNat - 'a'.toNat + 10).toUInt16
  else if 'A' ≤ c ∧ c ≤ 'F' then some (c.toNat - 'A'.toNat + 10).toUInt16
  else none

/-- The code unit that four hexadecimal digits stand for. -/
def codeUnit? (a b c d : Char) : Option UInt16 := do
  return (← hexDigit? a) * 4096 + (← hexDigit? b) * 256 + (← hexDigit? c) * 16 + (← hexDigit? d)

/-- The character that a letter after a backslash stands for. -/
def letterEscape? (c : Char) : Option Char :=
  match c with
  | '"' => some '"'
  | '\\' => some '\\'
  | '/' => some '/'
  | 'b' => some '\x08'
  | 'f' => some '\x0c'
  | 'n' => some '\n'
  | 'r' => some '\r'
  | 't' => some '\t'
  | _ => none

/-- The length of a text in bytes. -/
def byteLength (text : List Char) : Nat :=
  (String.ofList text).utf8ByteSize

namespace StringLiteral

/-- The literal that breaks off after the given pieces, the last of them first. -/
def breakOff (pieces : List StringPiece) (tear : StringTear) : StringLiteral × List Char :=
  (⟨pieces.reverse, some tear⟩, [])

/-- Reads a string literal from behind its opening quote; `pieces` are those read so far,
the last of them first. -/
def scan (pieces : List StringPiece) : List Char → StringLiteral × List Char
  | [] => breakOff pieces .unterminated
  | c :: rest =>
    if c = '"' then (⟨pieces.reverse, none⟩, rest)
    else if c = '\\' then
      match rest with
      | [] => breakOff pieces .unterminated
      | e :: rest =>
        if e = 'u' then
          match rest with
          | h₁ :: h₂ :: h₃ :: h₄ :: rest =>
            match codeUnit? h₁ h₂ h₃ h₄ with
            | some value => scan (.codeUnit value :: pieces) rest
            | none => breakOff pieces .malformedHex
          | short =>
            breakOff pieces (if byteLength short < 4 then .unterminated else .malformedHex)
        else
          match letterEscape? e with
          | some meant => scan (.char meant :: pieces) rest
          | none => breakOff pieces .unknownEscape
    else if c < ' ' then breakOff pieces .controlCharacter
    else scan (.char c :: pieces) rest

theorem length_scan_le (pieces : List StringPiece) (text : List Char) :
    (scan pieces text).2.length ≤ text.length := by
  fun_induction scan pieces text <;> simp_all [breakOff] <;> omega

end StringLiteral

/-! ## Words -/

/-- Reads the remaining letters of a word. The error says whether the text ends first. -/
def scanWord : List Char → List Char → Except Bool (List Char)
  | [], text => .ok text
  | _ :: _, [] => .error true
  | letter :: letters, c :: rest => if c = letter then scanWord letters rest else .error false

theorem length_le_of_scanWord {letters text rest : List Char}
    (h : scanWord letters text = .ok rest) : rest.length ≤ text.length := by
  fun_induction scanWord letters text <;> grind

/-! ## Numbers -/

namespace NumberLiteral

/-- Reads one or more digits. The error says whether the text ends where they should be. -/
def scanDigits (text : List Char) : Except Bool (List Char × List Char) :=
  match text.takeWhile Char.isDigit with
  | [] => .error text.isEmpty
  | digits => .ok (digits, text.dropWhile Char.isDigit)

/-- Reads the digits before the point: a lone zero, or digits that begin with another one. -/
def scanWhole (text : List Char) : Except Bool (List Char × List Char) :=
  match scanDigits text with
  | .ok ('0' :: _ :: _, _) => .error false
  | other => other

/-- Reads the part from the point on, where there is one. -/
def scanFraction (text : List Char) : Except Bool (Option (List Char) × List Char) :=
  match text with
  | '.' :: rest => do
    let (digits, rest) ← scanDigits rest
    return (some digits, rest)
  | _ => .ok (none, text)

/-- Reads the sign of an exponent. -/
def scanExponentSign (text : List Char) : ExponentSign × List Char :=
  match text with
  | '+' :: rest => (.plus, rest)
  | '-' :: rest => (.minus, rest)
  | _ => (.none, text)

/-- Reads the exponent, where there is one. -/
def scanExponent (text : List Char) :
    Except Bool (Option (ExponentSign × List Char) × List Char) :=
  let scanMarked (rest : List Char) := do
    let (sign, rest) := scanExponentSign rest
    let (digits, rest) ← scanDigits rest
    return (some (sign, digits), rest)
  match text with
  | 'e' :: rest => scanMarked rest
  | 'E' :: rest => scanMarked rest
  | _ => .ok (none, text)

/-- Reads a number literal from behind its sign. The error says whether the text ends
inside the literal. -/
def scan (negative : Bool) (text : List Char) : Except Bool (NumberLiteral × List Char) := do
  let (whole, rest) ← scanWhole text
  let (fraction, rest) ← scanFraction rest
  let (exponent, rest) ← scanExponent rest
  return ({ negative, whole, fraction, exponent }, rest)

theorem length_lt_of_scanDigits {text digits rest : List Char}
    (h : scanDigits text = .ok (digits, rest)) : rest.length < text.length := by
  have parts := congrArg List.length
    (List.takeWhile_append_dropWhile (p := Char.isDigit) (l := text))
  unfold scanDigits at h
  split at h
  · simp at h
  · rename_i some_digit
    obtain ⟨-, rfl⟩ : _ ∧ List.dropWhile Char.isDigit text = rest := by simpa using h
    have := List.length_pos_iff.2 some_digit
    rw [List.length_append] at parts
    omega

theorem length_lt_of_scanWhole {text digits rest : List Char}
    (h : scanWhole text = .ok (digits, rest)) : rest.length < text.length := by
  unfold scanWhole at h
  split at h
  · simp at h
  · exact length_lt_of_scanDigits h

theorem length_le_of_scanFraction {text rest : List Char} {fraction : Option (List Char)}
    (h : scanFraction text = .ok (fraction, rest)) : rest.length ≤ text.length := by
  unfold scanFraction at h
  split at h
  · rename_i tail
    cases hd : scanDigits tail with
    | error e => simp [hd, bind, Except.bind] at h
    | ok r =>
      obtain ⟨ds, r⟩ := r
      have := length_lt_of_scanDigits hd
      simp [hd, bind, Except.bind, pure, Except.pure] at h
      simp_all
      omega
  · simp_all

theorem length_scanExponentSign_le (text : List Char) :
    (scanExponentSign text).2.length ≤ text.length := by
  unfold scanExponentSign
  split <;> simp

theorem length_le_of_scanExponent {text rest : List Char}
    {exponent : Option (ExponentSign × List Char)}
    (h : scanExponent text = .ok (exponent, rest)) : rest.length ≤ text.length := by
  have marked : ∀ tail : List Char,
      (do
        let (sign, rest) := scanExponentSign tail
        let (digits, rest) ← scanDigits rest
        return (some (sign, digits), rest) : Except Bool _) = .ok (exponent, rest) →
      rest.length ≤ tail.length := by
    intro tail ht
    have hs := length_scanExponentSign_le tail
    cases hd : scanDigits (scanExponentSign tail).2 with
    | error e => simp [hd, bind, Except.bind] at ht
    | ok r =>
      obtain ⟨ds, r⟩ := r
      have := length_lt_of_scanDigits hd
      simp [hd, bind, Except.bind, pure, Except.pure] at ht
      simp_all
      omega
  unfold scanExponent at h
  split at h
  · have := marked _ h
    simp; omega
  · have := marked _ h
    simp; omega
  · simp_all

theorem length_lt_of_scan {negative : Bool} {text rest : List Char} {literal : NumberLiteral}
    (h : scan negative text = .ok (literal, rest)) : rest.length < text.length := by
  unfold scan at h
  cases h₁ : scanWhole text with
  | error e => simp [h₁, bind, Except.bind] at h
  | ok r₁ =>
    obtain ⟨whole, rest₁⟩ := r₁
    cases h₂ : scanFraction rest₁ with
    | error e => simp [h₁, h₂, bind, Except.bind] at h
    | ok r₂ =>
      obtain ⟨fraction, rest₂⟩ := r₂
      cases h₃ : scanExponent rest₂ with
      | error e => simp [h₁, h₂, h₃, bind, Except.bind] at h
      | ok r₃ =>
        obtain ⟨exponent, rest₃⟩ := r₃
        have l₁ := length_lt_of_scanWhole h₁
        have l₂ := length_le_of_scanFraction h₂
        have l₃ := length_le_of_scanExponent h₃
        simp [h₁, h₂, h₃, bind, Except.bind, pure, Except.pure] at h
        simp_all
        omega

end NumberLiteral

/-! ## Tokens -/

namespace Token

/-- The token of a word of which all letters but the first are still to be read. -/
def scanNamed (token : Token) (letters text : List Char) : Token × List Char :=
  match scanWord letters text with
  | .ok rest => (token, rest)
  | .error atEnd => (.broken (.brokenWord atEnd), [])

/-- The token of a number literal that follows its sign, if any. -/
def scanNumber (negative : Bool) (text : List Char) : Token × List Char :=
  match NumberLiteral.scan negative text with
  | .ok (literal, rest) => (.number literal, rest)
  | .error atEnd => (.broken (.brokenNumber atEnd), [])

/-- The token of a string literal that follows its opening quote. -/
def scanString (text : List Char) : Token × List Char :=
  let (literal, rest) := StringLiteral.scan [] text
  (.string literal, rest)

/-- Reads the token that begins with the character `c`. -/
def scan (c : Char) (rest : List Char) : Token × List Char :=
  match c with
  | '[' => (.openArray, rest)
  | ']' => (.closeArray, rest)
  | '\x7b' => (.openObject, rest)
  | '\x7d' => (.closeObject, rest)
  | ',' => (.comma, rest)
  | ':' => (.colon, rest)
  | '"' => scanString rest
  | 'n' => scanNamed .null ['u', 'l', 'l'] rest
  | 't' => scanNamed (.boolean true) ['r', 'u', 'e'] rest
  | 'f' => scanNamed (.boolean false) ['a', 'l', 's', 'e'] rest
  | '-' => scanNumber true rest
  | c => if c.isDigit then scanNumber false (c :: rest) else (.broken .strayCharacter, [])

theorem length_scanNamed_le (token : Token) (letters text : List Char) :
    (scanNamed token letters text).2.length ≤ text.length := by
  unfold scanNamed
  split
  · exact length_le_of_scanWord ‹_›
  · simp

theorem length_scanNumber_le (negative : Bool) (text : List Char) :
    (scanNumber negative text).2.length ≤ text.length - 1 := by
  unfold scanNumber
  split
  · exact Nat.le_sub_one_of_lt (NumberLiteral.length_lt_of_scan ‹_›)
  · simp

theorem length_scanString_le (text : List Char) :
    (scanString text).2.length ≤ text.length :=
  StringLiteral.length_scan_le [] text

/-- A token takes at least the character that it begins with. -/
theorem length_scan_le (c : Char) (rest : List Char) :
    (scan c rest).2.length ≤ rest.length := by
  unfold scan
  split
  all_goals first
    | exact Nat.le_refl _
    | exact length_scanString_le rest
    | exact length_scanNamed_le _ _ rest
    | exact Nat.le_trans (length_scanNumber_le true rest) (Nat.sub_le _ _)
    | skip
  split
  · exact length_scanNumber_le false (c :: rest)
  · simp

end Token

/-- The tokens of a text, behind those already read, of which the last comes first. -/
def tokensOnto (done : List Token) (text : List Char) : List Token :=
  match text with
  | [] => done.reverse
  | c :: rest =>
    if isBlank c then tokensOnto done rest
    else
      have := Token.length_scan_le c rest
      tokensOnto ((Token.scan c rest).1 :: done) (Token.scan c rest).2
termination_by text.length

/-- The tokens of a text, up to the first one that is broken. -/
def tokens (text : List Char) : List Token :=
  tokensOnto [] text

end RunTrace.Json
