import RunTrace.Json.Token
import RunTrace.Json.Writer
import RunTrace.Proofs.Results

/-!
# String literals, spelled, written and read

A character of a string can be spelled in several ways: raw, by a letter behind a backslash, or by
the digits of its code units. A literal is scanned from each of its spellings, and from nothing
else. What is written for a text is one of them, and is read as that text again.

## Main results

* `StringLiteral.scan_of_pieces`: a literal is scanned from each of its spellings;
* `StringLiteral.exists_pieces_of_scan`: what is scanned as a closed literal is a spelling of it;
* `StringLiteral.spelledBy_text`: what is written for a literal spells it;
* `StringLiteral.read_ofText`: the literal that writes a text is read as that text.
-/

namespace RunTrace.Json

/-! ## Spellings -/

/-- The spellings of a piece of a string: a character as it is, unless it has a meaning in strings
or is a control character; a character by a letter behind a backslash; and a code unit by four
hexadecimal digits. -/
inductive StringPiece.SpelledBy : StringPiece → List Char → Prop
  | raw {c : Char} (hquote : c ≠ '"') (hescape : c ≠ '\\') (hcontrol : ¬ c < ' ') :
      SpelledBy (.char c) [c]
  | letter {letter meant : Char} (h : letterEscape? letter = some meant) :
      SpelledBy (.char meant) ['\\', letter]
  | codeUnit {a b c d : Char} {value : UInt16} (h : codeUnit? a b c d = some value) :
      SpelledBy (.codeUnit value) ['\\', 'u', a, b, c, d]

namespace StringLiteral

/-- The spellings of pieces one behind the other. -/
inductive PiecesSpelledBy : List StringPiece → List Char → Prop
  | nil : PiecesSpelledBy [] []
  | cons {piece : StringPiece} {pieces : List StringPiece} {text rest : List Char}
      (hpiece : piece.SpelledBy text) (hrest : PiecesSpelledBy pieces rest) :
      PiecesSpelledBy (piece :: pieces) (text ++ rest)

/-- The spellings of a closed string literal, with the quotes around it. -/
inductive SpelledBy : StringLiteral → List Char → Prop
  | mk {pieces : List StringPiece} {body : List Char} (h : PiecesSpelledBy pieces body) :
      SpelledBy ⟨pieces, none⟩ ('"' :: (body ++ ['"']))

/-! ## Scanning -/

theorem scan_quote (done : List StringPiece) (rest : List Char) :
    scan done ('"' :: rest) = (⟨done.reverse, none⟩, rest) := by
  rw [scan.eq_def]
  simp

/-- A piece is scanned from each of its spellings. -/
theorem scan_of_piece {piece : StringPiece} {text : List Char} (h : piece.SpelledBy text)
    (done : List StringPiece) (rest : List Char) :
    scan done (text ++ rest) = scan (piece :: done) rest := by
  cases h with
  | raw hquote hescape hcontrol =>
    rw [List.singleton_append, scan.eq_def]
    simp [hquote, hescape, hcontrol]
  | @letter letter meant hmeant =>
    -- The letter `u` is that of a code unit, and stands for no character of its own.
    have hne : letter ≠ 'u' := by
      rintro rfl
      exact absurd hmeant (by simp [letterEscape?])
    rw [List.cons_append, scan.eq_def]
    simp [hne, hmeant]
  | codeUnit hvalue =>
    rw [List.cons_append, scan.eq_def]
    simp [hvalue]

/-- Pieces are scanned up to the closing quote from each of their spellings. -/
theorem scan_of_pieces {pieces : List StringPiece} {body : List Char}
    (h : PiecesSpelledBy pieces body) (done : List StringPiece) (rest : List Char) :
    scan done (body ++ '"' :: rest) = (⟨done.reverse ++ pieces, none⟩, rest) := by
  induction h generalizing done with
  | nil => rw [List.nil_append, scan_quote, List.append_nil]
  | cons hpiece _ ih =>
    rw [List.append_assoc, scan_of_piece hpiece, ih, List.reverse_cons, List.append_assoc,
      List.singleton_append]

/-- What is scanned as a closed literal is a spelling of its pieces, up to the closing quote. -/
theorem exists_pieces_of_scan {done : List StringPiece} {text : List Char}
    (h : (scan done text).1.tear = none) :
    ∃ pieces body, (scan done text).1 = ⟨done.reverse ++ pieces, none⟩ ∧
      PiecesSpelledBy pieces body ∧ text = body ++ '"' :: (scan done text).2 := by
  -- Each piece that is scanned is put in front of those that are scanned behind it.
  have more : ∀ {done : List StringPiece} {piece : StringPiece} {front rest : List Char},
      piece.SpelledBy front →
      (∃ pieces body, (scan (piece :: done) rest).1 = ⟨(piece :: done).reverse ++ pieces, none⟩ ∧
        PiecesSpelledBy pieces body ∧ rest = body ++ '"' :: (scan (piece :: done) rest).2) →
      ∃ pieces body, (scan (piece :: done) rest).1 = ⟨done.reverse ++ pieces, none⟩ ∧
        PiecesSpelledBy pieces body ∧
        front ++ rest = body ++ '"' :: (scan (piece :: done) rest).2 := by
    rintro done piece front rest hpiece ⟨pieces, body, hliteral, hpieces, hrest⟩
    refine ⟨piece :: pieces, front ++ body, ?_, .cons hpiece hpieces, ?_⟩
    · rw [hliteral, List.reverse_cons, List.append_assoc, List.singleton_append]
    · rw [List.append_assoc, ← hrest]
  fun_induction scan done text with
  | case1 | case3 | case5 | case6 | case8 | case9 => cases h
  | case2 done rest => exact ⟨[], [], by simp, .nil, rfl⟩
  | case4 done a b c d rest value hvalue _ ih => exact more (.codeUnit hvalue) (ih h)
  | case7 done letter rest hletter meant hmeant _ ih => exact more (.letter hmeant) (ih h)
  | case10 done c rest hquote hescape hcontrol ih =>
    exact more (.raw hquote hescape hcontrol) (ih h)

end StringLiteral

/-! ## Writing -/

theorem hexDigit?_hexDigit : ∀ n < 16, hexDigit? (hexDigit n) = some n.toUInt16 := by
  decide

/-- A code unit is read from its four digits. -/
theorem codeUnit?_hexDigits (value : UInt16) :
    let n := value.toNat
    codeUnit? (hexDigit (n / 4096)) (hexDigit (n / 256 % 16)) (hexDigit (n / 16 % 16))
      (hexDigit (n % 16)) = some value := by
  intro n
  have hlt : n < 65536 := value.toNat_lt
  have hvalue : (n / 4096).toUInt16 * 4096 + (n / 256 % 16).toUInt16 * 256 +
      (n / 16 % 16).toUInt16 * 16 + (n % 16).toUInt16 = value := by
    refine UInt16.toNat_inj.1 ?_
    change _ = n
    simp
    omega
  simp only [codeUnit?, hexDigit?_hexDigit _ (Nat.mod_lt _ (by decide : 0 < 16)),
    hexDigit?_hexDigit (n / 4096) (by omega)]
  exact congrArg some hvalue

/-- A piece that can be written: a control character only if it has a letter of its own. -/
def StringPiece.Spellable : StringPiece → Prop
  | char c => c < ' ' → c ∈ ['\x08', '\x0c', '\n', '\r', '\t']
  | codeUnit _ => True

/-- What is written for a piece spells it. -/
theorem StringPiece.spelledBy_text {piece : StringPiece} (h : piece.Spellable) :
    piece.SpelledBy piece.text := by
  cases piece with
  | codeUnit value => exact .codeUnit (codeUnit?_hexDigits value)
  | char c =>
    unfold StringPiece.text
    -- All characters with a letter of their own are alike; any other is written raw.
    split
    case h_8 d hquote hescape hback hfeed hline hreturn htab heq =>
      -- A control character would have a letter, and those with one have been dealt with.
      obtain rfl := StringPiece.char.inj heq
      refine .raw hquote hescape fun hcontrol => ?_
      have hletter : c ∈ ['\x08', '\x0c', '\n', '\r', '\t'] := h hcontrol
      simp only [List.mem_cons, List.not_mem_nil, or_false] at hletter
      rcases hletter with hc | hc | hc | hc | hc
      · exact hback hc
      · exact hfeed hc
      · exact hline hc
      · exact hreturn hc
      · exact htab hc
    case h_9 heq => exact nomatch heq
    all_goals
      rename_i heq
      obtain rfl := StringPiece.char.inj heq
      exact .letter rfl

namespace StringLiteral

/-- A literal that can be written: it does not break off, and all of its pieces can be. -/
structure Spellable (literal : StringLiteral) : Prop where
  closed : literal.tear = none
  pieces : ∀ piece ∈ literal.pieces, piece.Spellable

theorem piecesSpelledBy_flatMap_text {pieces : List StringPiece}
    (h : ∀ piece ∈ pieces, piece.Spellable) :
    PiecesSpelledBy pieces (pieces.flatMap StringPiece.text) := by
  induction pieces with
  | nil => exact .nil
  | cons piece pieces ih =>
    obtain ⟨hpiece, hpieces⟩ := List.forall_mem_cons.1 h
    rw [List.flatMap_cons]
    exact .cons (StringPiece.spelledBy_text hpiece) (ih hpieces)

/-- What is written for a literal spells it. -/
theorem spelledBy_text {literal : StringLiteral} (h : literal.Spellable) :
    literal.SpelledBy literal.text := by
  obtain ⟨pieces, tear⟩ := literal
  obtain rfl : tear = none := h.closed
  exact .mk (piecesSpelledBy_flatMap_text h.pieces)

/-! ## Texts -/

theorem spellable_pieceOfChar (c : Char) : (pieceOfChar c).Spellable := by
  unfold pieceOfChar
  split
  · trivial
  · next h =>
    intro hcontrol
    exact Decidable.byContradiction fun hletter => h ⟨hcontrol, hletter⟩

/-- The literal that writes a text can be written. -/
theorem spellable_ofText (text : String) : (ofText text).Spellable :=
  ⟨rfl, fun piece hpiece => by
    obtain ⟨c, -, rfl⟩ := List.mem_map.1 hpiece
    exact spellable_pieceOfChar c⟩

/-- What writes a character is read as that character. -/
theorem readPieces_pieceOfChar (c : Char) (done : List Char) (pieces : List StringPiece) :
    readPieces none done (pieceOfChar c :: pieces) = readPieces none (c :: done) pieces := by
  unfold pieceOfChar
  split
  · next h =>
    -- The code unit of a control character is far below the surrogates.
    have hlt : c.toNat < 32 := UInt32.lt_iff_toNat_lt.1 (Char.lt_def.1 h.1)
    have hunit : c.toNat.toUInt16.toNat = c.toNat := Nat.mod_eq_of_lt (by omega)
    have hlow : isLowSurrogate c.toNat.toUInt16 = false := by
      simp only [isLowSurrogate, Bool.and_eq_false_iff, decide_eq_false_iff_not,
        UInt16.le_iff_toNat_le, hunit]
      exact .inl (by simp; omega)
    have hhigh : isHighSurrogate c.toNat.toUInt16 = false := by
      simp only [isHighSurrogate, Bool.and_eq_false_iff, decide_eq_false_iff_not,
        UInt16.le_iff_toNat_le, hunit]
      exact .inl (by simp; omega)
    rw [readPieces.eq_def]
    simp [hlow, hhigh, hunit]
  · rfl

theorem readPieces_map_pieceOfChar (done cs : List Char) :
    readPieces none done (cs.map pieceOfChar) = .ok (done.reverse ++ cs) := by
  induction cs generalizing done with
  | nil => simp [readPieces]
  | cons c cs ih =>
    rw [List.map_cons, readPieces_pieceOfChar, ih, List.reverse_cons, List.append_assoc,
      List.singleton_append]

/-- The literal that writes a text is read as that text. -/
theorem read_ofText (text : String) : (ofText text).read = .ok text := by
  have hread := readPieces_map_pieceOfChar [] text.toList
  rw [read, ofText, hread]
  simp [Functor.map, Except.map]

/-- The pieces of a literal are read up to its end. -/
theorem tear_of_readPieces {tear : Option StringTear} {done : List Char}
    {pieces : List StringPiece} {chars : List Char}
    (h : readPieces tear done pieces = .ok chars) : tear = none := by
  fun_induction readPieces tear done pieces with
  | case1 _ htear => exact htear
  | case3 _ _ _ ih | case5 _ _ _ _ _ _ _ ih | case9 _ _ _ _ _ ih => exact ih h
  | case2 | case4 | case6 | case7 | case8 => cases h

theorem tear_of_read {literal : StringLiteral} {text : String} (h : literal.read = .ok text) :
    literal.tear = none := by
  obtain ⟨chars, hchars, -⟩ := map_eq_ok.1 h
  exact tear_of_readPieces hchars

end StringLiteral

end RunTrace.Json
