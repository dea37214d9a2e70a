import RunTrace.Proofs.Format.Loaded

/-!
# Texts that are cut off

A record is an array or an object, so the last token of its text is a bracket, and what stands in
front of that bracket spells nothing. Were a part of a text to spell a document of its own, then the
whole text would have that document, with more text behind it, and would not be loaded. So a text
that is loaded can lose no more than the blanks at its end.

## Main results

* `TokensSpelledBy.of_append_blanks`: no token ends in a blank, so blanks at the end do not matter;
* `tokens_append_of_spelledBy`: the tokens of a text stay the same if more text follows, unless the
  last of them is a number;
* `ofText_append`: a document that is no number is read up to its end, whatever follows;
* `Trajectory.load_front`: which parts of a text can be loaded, and what is wrong with the others.
-/

namespace RunTrace

namespace Json

/-! ## Blanks at the end -/

/-- The last character of a text is a digit. -/
def EndsInDigit (text : List Char) : Prop :=
  ∃ d, text.getLast? = some d ∧ d.isDigit = true

theorem endsInDigit_of_isDigits {ds : List Char} (h : Decimal.IsDigits ds) : EndsInDigit ds :=
  ⟨ds.getLast h.ne_nil, List.getLast?_eq_some_getLast h.ne_nil,
    h.digit _ (List.getLast_mem h.ne_nil)⟩

theorem EndsInDigit.append {text : List Char} (h : EndsInDigit text) (before : List Char) :
    EndsInDigit (before ++ text) := by
  obtain ⟨d, hlast, hd⟩ := h
  exact ⟨d, by rw [List.getLast?_append, hlast, Option.some_or], hd⟩

/-- A number ends in a digit: the last one of the last part that is written. -/
theorem NumberLiteral.SpelledBy.endsInDigit {literal : NumberLiteral} {text : List Char}
    (h : literal.SpelledBy text) : EndsInDigit text := by
  obtain ⟨hunsigned⟩ := h
  obtain @⟨fraction, exponent, hwhole, -, hfraction, hexponent⟩ := hunsigned
  have hparts : (fraction = [] ∨ EndsInDigit fraction) ∧
      (exponent = [] ∨ EndsInDigit exponent) := by
    constructor
    · generalize literal.fraction = written at hfraction
      cases hfraction with
      | none => exact .inl rfl
      | some hds => exact .inr ((endsInDigit_of_isDigits hds).append ['.'])
    · generalize literal.exponent = written at hexponent
      cases hexponent with
      | none => exact .inl rfl
      | some hmark hds => exact .inr ((endsInDigit_of_isDigits hds).append (_ :: _))
  refine EndsInDigit.append ?_ _
  obtain ⟨hfraction, rfl | hexponent⟩ := hparts
  · obtain rfl | hfraction := hfraction
    · simpa using endsInDigit_of_isDigits hwhole
    · simpa using hfraction.append literal.whole
  · exact (hexponent.append fraction).append literal.whole

/-- The last character of a token is no blank. -/
theorem Token.SpelledBy.exists_getLast? {token : Token} {text : List Char}
    (h : token.SpelledBy text) : ∃ c, text.getLast? = some c ∧ isBlank c = Bool.false := by
  cases h with
  | openArray | closeArray | openObject | closeObject | comma | colon | null | true | false =>
    exact ⟨_, rfl, rfl⟩
  | number h =>
    obtain ⟨d, hlast, hd⟩ := h.endsInDigit
    exact ⟨d, hlast, (NumberLiteral.scanToken_of_isDigit hd []).1⟩
  | string h =>
    obtain @⟨pieces, body, -⟩ := h
    exact ⟨'"', List.getLast?_concat (l := '"' :: body), rfl⟩

/-- What spells tokens still spells them without the blanks at its end. -/
theorem TokensSpelledBy.of_append_blanks {ts : List Token} {text blanks : List Char}
    (h : TokensSpelledBy ts (text ++ blanks)) (hblanks : ∀ c ∈ blanks, isBlank c = true) :
    TokensSpelledBy ts text := by
  generalize hwhole : text ++ blanks = whole at h
  induction h generalizing text blanks with
  | nil hall =>
    rw [← hwhole] at hall
    exact .nil (List.forall_mem_append.1 hall).1
  | @cons token more before spelled rest hbefore htoken hrest ih =>
    rw [← List.append_assoc] at hwhole
    obtain ⟨cut, htext, hcut⟩ | ⟨behind, rfl, hbehind⟩ := List.append_eq_append_iff.1 hwhole
    · -- Nothing of the token can be among the blanks, as it does not end in one.
      obtain rfl : cut = [] := by
        by_contra hne
        obtain ⟨c, hc, hnoblank⟩ := htoken.exists_getLast?
        have hlast := congrArg List.getLast? htext
        rw [List.getLast?_append, hc, Option.some_or, List.getLast?_append,
          List.getLast?_eq_some_getLast hne, Option.some_or] at hlast
        have hmem : c ∈ blanks := by
          rw [hcut, Option.some.inj hlast]
          exact List.mem_append_left _ (List.getLast_mem hne)
        exact absurd (hblanks c hmem) (by rw [hnoblank]; exact Bool.false_ne_true)
      rw [List.append_nil] at htext
      have hnone : TokensSpelledBy more [] := ih hblanks hcut
      rw [← htext, ← List.append_nil spelled]
      exact .cons hbefore htoken hnone
    · rw [List.append_assoc]
      exact .cons hbefore htoken (ih hblanks hbehind.symm)

theorem SpelledBy.of_append_blanks {document : Json} {text blanks : List Char}
    (h : document.SpelledBy (text ++ blanks)) (hblanks : ∀ c ∈ blanks, isBlank c = true) :
    document.SpelledBy text :=
  ⟨h.1, h.2.of_append_blanks hblanks⟩

/-! ## More text at the end -/

/-- A number ends in front of a token that is none, whatever follows that token. -/
theorem TokensSpelledBy.endsNumber_append {next : Token} {ts : List Token} {text : List Char}
    (h : TokensSpelledBy (next :: ts) text) (hnext : next.isNumber = false) (rest : List Char) :
    NumberLiteral.EndsNumber (text ++ rest) := by
  cases h with
  | cons hblanks htoken _ =>
    rw [List.append_assoc, List.append_assoc]
    exact endsNumber_blanks_append hblanks (htoken.endsNumber hnext _)

/-- The tokens of a text stay the same if more text follows, unless the last of them is a number:
that could go on. -/
theorem tokens_append_of_spelledBy {ts : List Token} {text : List Char}
    (h : TokensSpelledBy ts text) (separated : Separated ts)
    (hlast : ∀ token ∈ ts.getLast?, token.isNumber = false) (rest : List Char) :
    tokens (text ++ rest) = ts ++ tokens rest := by
  induction h with
  | nil hblanks => rw [tokens_blanks_append hblanks, List.nil_append]
  | @cons token more blanks spelled behind hblanks htoken hrest ih =>
    obtain ⟨hfirst, hmore⟩ := List.isChain_cons.1 separated
    have hends : token.isNumber = true → NumberLiteral.EndsNumber (behind ++ rest) := by
      intro hnumber
      -- A number is not the last token, and the next one is no number.
      cases more with
      | nil => exact absurd (hnumber.symm.trans (hlast token rfl)) (by decide)
      | cons next others => exact hrest.endsNumber_append (hfirst next rfl hnumber) rest
    obtain ⟨c, others, htext, hblank, hscan⟩ := Token.scan_of_spelledBy htoken hends
    have hlast' : ∀ token ∈ more.getLast?, token.isNumber = false := fun last hmem =>
      hlast last (List.mem_getLast?_cons hmem)
    rw [List.append_assoc, List.append_assoc, tokens_blanks_append hblanks, htext,
      tokens_of_scan hblank hscan, ih hmore hlast', List.cons_append]

/-- A text without tokens is one of blanks. -/
theorem tokens_eq_nil_iff {text : List Char} : tokens text = [] ↔ ∀ c ∈ text, isBlank c = true := by
  induction text with
  | nil => exact iff_of_true tokens_nil (List.forall_mem_nil _)
  | cons c rest ih =>
    rw [tokens_cons, List.forall_mem_cons]
    by_cases hblank : isBlank c = true
    · rw [if_pos hblank, ih, and_iff_right hblank]
    · rw [if_neg hblank]
      exact iff_of_false (List.cons_ne_nil _ _) fun h => hblank h.1

/-- Only a number has a number as its last token. -/
theorem isNumber_getLast?_tokenList {document : Json}
    (hnumber : ∀ literal, document ≠ .number literal) :
    ∀ token ∈ (tokenList document).getLast?, token.isNumber = false := by
  intro token hmem
  match document with
  | null | boolean _ | string _ | array [] | object [] =>
    obtain rfl := Option.some.inj hmem
    rfl
  | number literal => exact absurd rfl (hnumber literal)
  | array (item :: items) =>
    rw [tokenList, List.getLast?_concat] at hmem
    obtain rfl := Option.some.inj hmem
    rfl
  | object (member :: members) =>
    rw [tokenList, List.getLast?_concat] at hmem
    obtain rfl := Option.some.inj hmem
    rfl
  | torn _ => cases hmem

/-- A document that is no number is read up to its end, and then it is only asked whether anything
but blanks follows. -/
theorem ofText_append {document : Json} {text : List Char} (h : document.SpelledBy text)
    (hnumber : ∀ literal, document ≠ .number literal) (rest : List Char) :
    Document.ofText (text ++ rest) = ⟨document, !(tokens rest).isEmpty⟩ := by
  obtain ⟨complete, spelled⟩ := h
  have hseparated : Separated (tokenList document ++ []) :=
    separated_tokenList document fun _ => List.isChain_singleton _
  rw [List.append_nil] at hseparated
  have htokens := tokens_append_of_spelledBy spelled hseparated
    (isNumber_getLast?_tokenList hnumber) rest
  have hread := readFrom_tokenList document complete [] (tokens rest)
  rw [Document.ofText, htokens, Document.ofTokens, hread]
  cases tokens rest <;> rfl

end Json

namespace Format

open Json

/-- No record is read from a number. -/
theorem ne_number_of_readRecord {levels : Nat} {record : Record} {json : Json}
    {value : record.Value} (h : readRecord levels record json = .ok value) :
    ∀ literal, json ≠ .number literal := by
  rintro literal rfl
  obtain ⟨below, rfl, -⟩ := readRecord_eq_ok h
  rw [readRecord_succ] at h
  exact wrongType_ne_ok h

/-- If a text is read, then what follows a part of it from which something is read is blank. -/
theorem blank_of_read_append {front rest : String} {trajectory other : Trajectory}
    (h : read (front ++ rest) = .ok trajectory) (hfront : read front = .ok other) :
    ∀ c ∈ rest.toList, isBlank c = true := by
  obtain ⟨document, hspelled, -⟩ := read_eq_ok_iff.1 h
  obtain ⟨part, hpart, hread⟩ := read_eq_ok_iff.1 hfront
  have hdocument := ofText_of_spelledBy hspelled
  rw [String.toList_append, ofText_append hpart (ne_number_of_readRecord hread)] at hdocument
  -- The whole text has the document of its part, and nothing but blanks behind it.
  have hempty := (Document.mk.inj hdocument).2
  rw [Bool.not_eq_false', List.isEmpty_iff] at hempty
  exact tokens_eq_nil_iff.1 hempty

end Format

open Format

/-- A text that is loaded can be cut off anywhere. If only blanks are cut off, the same trajectory
is loaded from what is left, and otherwise what is left cannot be read. -/
theorem Trajectory.load_front {front rest : String} {trajectory : Trajectory}
    (h : Trajectory.load (front ++ rest) = .ok trajectory) :
    ((∀ c ∈ rest.toList, Json.isBlank c = true) → Trajectory.load front = .ok trajectory) ∧
      ((∃ c ∈ rest.toList, Json.isBlank c = false) →
        ∃ error, Trajectory.load front = .error (.unreadable error)) := by
  constructor
  · intro hblanks
    obtain ⟨⟨document, hspelled, hread⟩, hvalid⟩ := load_eq_ok_iff.1 h
    rw [String.toList_append] at hspelled
    exact load_eq_ok_iff.2 ⟨⟨document, hspelled.of_append_blanks hblanks, hread⟩, hvalid⟩
  · rintro ⟨c, hmem, hc⟩
    cases hfront : Format.read front with
    | error error =>
      refine ⟨error, ?_⟩
      rw [Trajectory.load, Trajectory.parse, hfront]
      rfl
    | ok other =>
      have hblank := blank_of_read_append (load_eq_ok h).1 hfront c hmem
      exact absurd (hblank.symm.trans hc) (by decide)

/-- The text of the demo trajectory cannot be read without the brace at its end. -/
theorem Trajectory.load_front_demo :
    ∃ front, write demoTrajectory = front ++ "\x7d" ∧
      Trajectory.load (front ++ "\x7d") = .ok demoTrajectory ∧
      (∃ c ∈ "\x7d".toList, Json.isBlank c = false) ∧
      ∃ error, Trajectory.load front = .error (.unreadable error) := by
  obtain ⟨front, hfront⟩ : ∃ front, write demoTrajectory = front ++ "\x7d" :=
    ⟨_, String.ofList_append⟩
  have hload : Trajectory.load (front ++ "\x7d") = .ok demoTrajectory :=
    hfront ▸ load_demoTrajectory demoTrajectory.runId
  have hbrace : ∃ c ∈ "\x7d".toList, Json.isBlank c = false :=
    ⟨'\x7d', List.mem_singleton_self _, rfl⟩
  exact ⟨front, hfront, hload, hbrace, (Trajectory.load_front hload).2 hbrace⟩

end RunTrace
