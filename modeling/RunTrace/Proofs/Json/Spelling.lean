import Mathlib.Data.List.Chain
import RunTrace.Proofs.Json.NumberLiteral
import RunTrace.Proofs.Json.StringLiteral

/-!
# How tokens are spelled

A token is spelled by fixed characters or as its literal is, and any blanks may stand between two
tokens. This grammar says nothing of scanning, and the scanner follows it in both directions: tokens
are scanned from each of their spellings, and a text in which none of them breaks off is a spelling
of those that are scanned from it.

## Main results

* `Token.scan_of_spelledBy`: a token is scanned from each of its spellings;
* `Token.spelledBy_of_scan`: what is scanned as a whole token is a spelling of it;
* `tokens_of_spelledBy` and `spelledBy_tokens`: the same for all tokens of a text.
-/

namespace RunTrace.Json

/-! ## Tokens -/

namespace Token

/-- The spellings of a token. -/
inductive SpelledBy : Token → List Char → Prop
  | openArray : SpelledBy .openArray ['[']
  | closeArray : SpelledBy .closeArray [']']
  | openObject : SpelledBy .openObject ['\x7b']
  | closeObject : SpelledBy .closeObject ['\x7d']
  | comma : SpelledBy .comma [',']
  | colon : SpelledBy .colon [':']
  | null : SpelledBy .null ['n', 'u', 'l', 'l']
  | true : SpelledBy (.boolean true) ['t', 'r', 'u', 'e']
  | false : SpelledBy (.boolean false) ['f', 'a', 'l', 's', 'e']
  | number {literal : NumberLiteral} {text : List Char} (h : literal.SpelledBy text) :
      SpelledBy (.number literal) text
  | string {literal : StringLiteral} {text : List Char} (h : literal.SpelledBy text) :
      SpelledBy (.string literal) text

/-- Whether a token is a number. -/
def isNumber : Token → Bool
  | number _ => Bool.true
  | _ => Bool.false

/-- The text does not break off in a token. -/
def Whole : Token → Prop
  -- A literal that is not closed is still a string, with the break inside.
  | string literal => literal.tear = none
  | broken _ => False
  | _ => True

/-- A number is scanned from each of its spellings, if nothing follows that could continue it. -/
theorem scan_of_number {literal : NumberLiteral} {text rest : List Char}
    (h : literal.SpelledBy text) (hrest : NumberLiteral.EndsNumber rest) :
    ∃ c more, text ++ rest = c :: more ∧ isBlank c = Bool.false ∧
      scan c more = (.number literal, rest) := by
  obtain @⟨text, h⟩ := h
  have hscan := NumberLiteral.scan_of_spelledBy h hrest
  -- The first character is the sign, or else the first digit.
  cases hsign : literal.negative with
  | true =>
    rw [hsign] at hscan
    refine ⟨'-', text ++ rest, rfl, rfl, ?_⟩
    change scanNumber Bool.true _ = _
    rw [scanNumber, hscan]
  | false =>
    rw [hsign] at hscan
    obtain ⟨hwhole, -, -, -⟩ := h
    obtain ⟨c, more, hc⟩ := List.exists_cons_of_ne_nil hwhole.ne_nil
    rw [hc] at hscan ⊢
    obtain ⟨hblank, htoken⟩ :=
      NumberLiteral.scanToken_of_isDigit (hwhole.digit c (hc ▸ List.mem_cons_self)) _
    refine ⟨c, _, rfl, hblank, ?_⟩
    rw [htoken]
    show scanNumber Bool.false (c :: more ++ _ ++ rest) = _
    rw [scanNumber, hscan]

/-- A token is scanned from each of its spellings. -/
theorem scan_of_spelledBy {token : Token} {text rest : List Char} (h : token.SpelledBy text)
    (hrest : token.isNumber = Bool.true → NumberLiteral.EndsNumber rest) :
    ∃ c more, text ++ rest = c :: more ∧ isBlank c = Bool.false ∧
      scan c more = (token, rest) := by
  cases h with
  | openArray | closeArray | openObject | closeObject | comma | colon | null | true | false =>
    exact ⟨_, _, rfl, rfl, rfl⟩
  | number h => exact scan_of_number h (hrest rfl)
  | string h =>
    obtain @⟨pieces, body, h⟩ := h
    refine ⟨'"', body ++ '"' :: rest, ?_, rfl, ?_⟩
    · rw [List.cons_append, List.append_assoc, List.singleton_append]
    · change scanString _ = _
      rw [scanString, StringLiteral.scan_of_pieces h]
      rfl

/-- Only a number begins with a character that could continue a number. -/
theorem SpelledBy.endsNumber {token : Token} {text : List Char} (h : token.SpelledBy text)
    (hnumber : token.isNumber = Bool.false) (rest : List Char) :
    NumberLiteral.EndsNumber (text ++ rest) := by
  intro c hc
  cases h with
  | openArray | closeArray | openObject | closeObject | comma | colon | null | true | false =>
    cases hc
    decide
  | number h => cases hnumber
  | string h =>
    obtain ⟨h⟩ := h
    cases hc
    decide

theorem append_of_scanWord {letters text rest : List Char} (h : scanWord letters text = .ok rest) :
    text = letters ++ rest := by
  fun_induction scanWord letters text with
  | case1 text => exact Except.ok.inj h
  | case2 | case4 => cases h
  | case3 letters letter more ih => exact congrArg _ (ih h)

theorem spelledBy_of_scanNamed {named token : Token} {c : Char} {letters text rest : List Char}
    (hnamed : named.SpelledBy (c :: letters)) (h : scanNamed named letters text = (token, rest))
    (whole : token.Whole) : ∃ front, token.SpelledBy front ∧ c :: text = front ++ rest := by
  unfold scanNamed at h
  split at h
  · next hword =>
    cases h
    exact ⟨_, hnamed, congrArg _ (append_of_scanWord hword)⟩
  · cases h
    exact whole.elim

theorem spelledBy_of_scanNumber {negative : Bool} {token : Token} {text rest : List Char}
    (h : scanNumber negative text = (token, rest)) (whole : token.Whole) :
    ∃ front, token.SpelledBy front ∧
      (if negative then ['-'] else []) ++ text = front ++ rest := by
  unfold scanNumber at h
  split at h
  · next hscan =>
    cases h
    obtain ⟨rfl, front, hfront, rfl⟩ := NumberLiteral.spelledBy_of_scan hscan
    exact ⟨_, .number (.mk hfront), (List.append_assoc ..).symm⟩
  · cases h
    exact whole.elim

theorem spelledBy_of_scanString {token : Token} {text rest : List Char}
    (h : scanString text = (token, rest)) (whole : token.Whole) :
    ∃ front, token.SpelledBy front ∧ '"' :: text = front ++ rest := by
  cases h
  obtain ⟨pieces, body, hliteral, hpieces, htext⟩ := StringLiteral.exists_pieces_of_scan whole
  refine ⟨'"' :: (body ++ ['"']), .string (hliteral ▸ .mk hpieces), ?_⟩
  rw [List.cons_append, List.append_assoc, List.singleton_append]
  exact congrArg _ htext

/-- What is scanned as a whole token is a spelling of it. -/
theorem spelledBy_of_scan {c : Char} {token : Token} {more rest : List Char}
    (h : scan c more = (token, rest)) (whole : token.Whole) :
    ∃ text, token.SpelledBy text ∧ c :: more = text ++ rest := by
  unfold scan at h
  -- The cases are those of the first character: first the tokens that have no others.
  split at h
  · cases h; exact ⟨_, .openArray, rfl⟩
  · cases h; exact ⟨_, .closeArray, rfl⟩
  · cases h; exact ⟨_, .openObject, rfl⟩
  · cases h; exact ⟨_, .closeObject, rfl⟩
  · cases h; exact ⟨_, .comma, rfl⟩
  · cases h; exact ⟨_, .colon, rfl⟩
  · exact spelledBy_of_scanString h whole
  · exact spelledBy_of_scanNamed .null h whole
  · exact spelledBy_of_scanNamed .true h whole
  · exact spelledBy_of_scanNamed .false h whole
  · exact spelledBy_of_scanNumber h whole
  · split at h
    · exact spelledBy_of_scanNumber h whole
    · cases h
      exact whole.elim

end Token

/-! ## Scanning step by step -/

theorem tokensOnto_eq (done : List Token) (text : List Char) :
    tokensOnto done text = done.reverse ++ tokens text := by
  unfold tokens
  -- A token may take any number of characters, so the induction is on the length of the text.
  induction hlength : text.length using Nat.strongRecOn generalizing done text with
  | ind length ih =>
    cases text with
    | nil => simp [tokensOnto]
    | cons c rest =>
      rw [List.length_cons] at hlength
      rw [tokensOnto.eq_def, tokensOnto.eq_def []]
      dsimp only
      by_cases hblank : isBlank c = true
      · rw [if_pos hblank, if_pos hblank]
        exact ih rest.length (by omega) done rest rfl
      · have hscan := Token.length_scan_le c rest
        rw [if_neg hblank, if_neg hblank, ih _ (by omega) _ _ rfl, ih _ (by omega) [_] _ rfl,
          List.reverse_cons, List.append_assoc]
        rfl

@[simp]
theorem tokens_nil : tokens [] = [] := by
  rw [tokens, tokensOnto]
  rfl

/-- The first character of a text is a blank, or it begins the first token. -/
theorem tokens_cons (c : Char) (rest : List Char) :
    tokens (c :: rest) =
      if isBlank c then tokens rest
      else (Token.scan c rest).1 :: tokens (Token.scan c rest).2 := by
  rw [tokens, tokensOnto]
  split
  · rfl
  · rw [tokensOnto_eq]
    rfl

/-- The token that is scanned comes first. -/
theorem tokens_of_scan {c : Char} {token : Token} {more rest : List Char}
    (hblank : isBlank c = false) (hscan : Token.scan c more = (token, rest)) :
    tokens (c :: more) = token :: tokens rest := by
  rw [tokens_cons, hblank, hscan, if_neg Bool.false_ne_true]

/-! ## Texts -/

/-- The spellings of tokens, with any blanks in front of, between and behind them. -/
inductive TokensSpelledBy : List Token → List Char → Prop
  | nil {blanks : List Char} (hblanks : ∀ c ∈ blanks, isBlank c = true) :
      TokensSpelledBy [] blanks
  | cons {token : Token} {more : List Token} {blanks text rest : List Char}
      (hblanks : ∀ c ∈ blanks, isBlank c = true) (htoken : token.SpelledBy text)
      (hrest : TokensSpelledBy more rest) :
      TokensSpelledBy (token :: more) (blanks ++ (text ++ rest))

/-- No number stands directly behind another one. -/
def Separated (ts : List Token) : Prop :=
  ts.IsChain fun first second => first.isNumber = true → second.isNumber = false

theorem tokens_blanks_append {blanks : List Char} (h : ∀ c ∈ blanks, isBlank c = true)
    (rest : List Char) : tokens (blanks ++ rest) = tokens rest := by
  induction blanks with
  | nil => rfl
  | cons c blanks ih =>
    obtain ⟨hc, hblanks⟩ := List.forall_mem_cons.1 h
    rw [List.cons_append, tokens_cons, if_pos hc, ih hblanks]

theorem endsNumber_blanks_append {blanks rest : List Char} (h : ∀ c ∈ blanks, isBlank c = true)
    (hrest : NumberLiteral.EndsNumber rest) : NumberLiteral.EndsNumber (blanks ++ rest) := by
  cases blanks with
  | nil => exact hrest
  | cons c blanks =>
    intro d hd
    obtain rfl : c = d := Option.some.inj hd
    have hc : ((c = ' ' ∨ c = '\t') ∨ c = '\n') ∨ c = '\r' := by
      simpa [isBlank] using h c List.mem_cons_self
    obtain ((rfl | rfl) | rfl) | rfl := hc <;> decide

/-- A number ends where tokens follow of which the first is no number, or none. -/
theorem TokensSpelledBy.endsNumber {ts : List Token} {text : List Char}
    (h : TokensSpelledBy ts text) (hfirst : ∀ token ∈ ts.head?, token.isNumber = false) :
    NumberLiteral.EndsNumber text := by
  cases h with
  | nil hblanks =>
    rw [← List.append_nil text]
    exact endsNumber_blanks_append hblanks (fun c hc => nomatch hc)
  | cons hblanks htoken hrest =>
    exact endsNumber_blanks_append hblanks (htoken.endsNumber (hfirst _ rfl) _)

/-- Tokens are scanned from each of their spellings, unless a number follows another one: without
a blank between them, they would be a single one. -/
theorem tokens_of_spelledBy {ts : List Token} {text : List Char} (h : TokensSpelledBy ts text)
    (separated : Separated ts) : tokens text = ts := by
  induction h with
  | nil hblanks =>
    have htokens := tokens_blanks_append hblanks []
    rwa [List.append_nil, tokens_nil] at htokens
  | cons hblanks htoken hrest ih =>
    obtain ⟨hfirst, hmore⟩ := List.isChain_cons.1 separated
    -- If the token is a number, it ends here because the next token is none.
    obtain ⟨c, more, htext, hblank, hscan⟩ := Token.scan_of_spelledBy htoken fun hnumber =>
      hrest.endsNumber fun next hnext => hfirst next hnext hnumber
    rw [tokens_blanks_append hblanks, htext, tokens_of_scan hblank hscan, ih hmore]

theorem TokensSpelledBy.blanks_append {ts : List Token} {blanks text : List Char}
    (hblanks : ∀ c ∈ blanks, isBlank c = true) (h : TokensSpelledBy ts text) :
    TokensSpelledBy ts (blanks ++ text) := by
  cases h with
  | nil hmore => exact .nil (List.forall_mem_append.2 ⟨hblanks, hmore⟩)
  | cons hmore htoken hrest =>
    rw [← List.append_assoc]
    exact .cons (List.forall_mem_append.2 ⟨hblanks, hmore⟩) htoken hrest

/-- No blanks have to stand in front of a token. -/
theorem TokensSpelledBy.token_append {token : Token} {ts : List Token} {text rest : List Char}
    (htoken : token.SpelledBy text) (h : TokensSpelledBy ts rest) :
    TokensSpelledBy (token :: ts) (text ++ rest) := by
  rw [← List.nil_append (text ++ rest)]
  exact .cons (List.forall_mem_nil _) htoken h

/-- A text in which no token breaks off is a spelling of its tokens. -/
theorem spelledBy_tokens {text : List Char} (whole : ∀ token ∈ tokens text, token.Whole) :
    TokensSpelledBy (tokens text) text := by
  -- A token may take any number of characters, so the induction is on the length of the text.
  induction hlength : text.length using Nat.strongRecOn generalizing text with
  | _ length ih =>
    cases text with
    | nil =>
      rw [tokens_nil]
      exact .nil (List.forall_mem_nil _)
    | cons c rest =>
      rw [List.length_cons] at hlength
      by_cases hblank : isBlank c = true
      · rw [tokens_cons, if_pos hblank] at whole ⊢
        exact .blanks_append (List.forall_mem_singleton.2 hblank)
          (ih rest.length (by omega) whole rfl)
      · have hscan := Token.length_scan_le c rest
        rw [tokens_cons, if_neg hblank] at whole ⊢
        obtain ⟨hfirst, hmore⟩ := List.forall_mem_cons.1 whole
        obtain ⟨front, hfront, htext⟩ := Token.spelledBy_of_scan rfl hfirst
        rw [htext]
        exact .token_append hfront (ih _ (by omega) hmore rfl)

end RunTrace.Json
