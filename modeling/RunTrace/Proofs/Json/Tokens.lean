import RunTrace.Proofs.Json.Spelling

/-!
# The tokens of a document

A document that does not break off has a sequence of tokens. It is written as a text that spells
these tokens, with line breaks between them.

## Main results

* `spelledBy_write`: a written value spells its tokens, whatever follows it.
-/

namespace RunTrace.Json

mutual

/-- The tokens that a value is written with. -/
def tokenList : Json → List Token
  | null => [.null]
  | boolean value => [.boolean value]
  | number literal => [.number literal]
  | string literal => [.string literal]
  | array [] => [.openArray, .closeArray]
  | array (item :: items) => .openArray :: tokenList item ++ itemTokens items ++ [.closeArray]
  | object [] => [.openObject, .closeObject]
  | object (member :: members) =>
    .openObject :: memberTokens member ++ membersTokens members ++ [.closeObject]
  | torn _ => []

/-- The tokens of the items behind the first one. -/
def itemTokens : List Json → List Token
  | [] => []
  | item :: items => .comma :: tokenList item ++ itemTokens items

/-- The tokens of a member. -/
def memberTokens : Member → List Token
  | .member key value => .string key :: .colon :: tokenList value
  | .torn _ => []

/-- The tokens of the members behind the first one. -/
def membersTokens : List Member → List Token
  | [] => []
  | member :: members => .comma :: memberTokens member ++ membersTokens members

end

mutual

/-- A value that can be written: nothing breaks off in it. -/
def Spellable : Json → Prop
  | null => True
  | boolean _ => True
  | number literal => literal.Spellable
  | string literal => literal.Spellable
  | array items => SpellableItems items
  | object members => SpellableMembers members
  | torn _ => False

/-- Items that can be written. -/
def SpellableItems : List Json → Prop
  | [] => True
  | item :: items => Spellable item ∧ SpellableItems items

/-- A member that can be written. -/
def SpellableMember : Member → Prop
  | .member key value => key.Spellable ∧ Spellable value
  | .torn _ => False

/-- Members that can be written. -/
def SpellableMembers : List Member → Prop
  | [] => True
  | member :: members => SpellableMember member ∧ SpellableMembers members

end

theorem spellable_array {items : List Json} (h : ∀ item ∈ items, Spellable item) :
    Spellable (array items) := by
  rw [Spellable]
  induction items with
  | nil => trivial
  | cons item items ih =>
    obtain ⟨hitem, hitems⟩ := List.forall_mem_cons.1 h
    exact ⟨hitem, ih hitems⟩

theorem spellable_object {members : List Member}
    (h : ∀ member ∈ members, SpellableMember member) : Spellable (object members) := by
  rw [Spellable]
  induction members with
  | nil => trivial
  | cons member members ih =>
    obtain ⟨hmember, hmembers⟩ := List.forall_mem_cons.1 h
    exact ⟨hmember, ih hmembers⟩

/-! ## Writing -/

section

variable {ts : List Token} {rest : List Char}

theorem TokensSpelledBy.char_cons {token : Token} {c : Char} (htoken : token.SpelledBy [c])
    (h : TokensSpelledBy ts rest) : TokensSpelledBy (token :: ts) (c :: rest) :=
  .token_append htoken h

theorem TokensSpelledBy.lineBreak_append (level : Nat) (h : TokensSpelledBy ts rest) :
    TokensSpelledBy ts (lineBreak level ++ rest) := by
  refine .blanks_append (List.forall_mem_cons.2 ⟨rfl, fun c hc => ?_⟩) h
  rw [List.eq_of_mem_replicate hc]
  rfl

end

mutual

/-- A written value spells its tokens, in front of what spells others. -/
theorem spelledBy_write (level : Nat) (value : Json) (h : Spellable value) {ts : List Token}
    {rest : List Char} (hrest : TokensSpelledBy ts rest) :
    TokensSpelledBy (tokenList value ++ ts) (write level value ++ rest) := by
  match value with
  | null => exact .token_append .null hrest
  | boolean true => exact .token_append .true hrest
  | boolean false => exact .token_append .false hrest
  | number literal => exact .token_append (.number (NumberLiteral.spelledBy_text h)) hrest
  | string literal => exact .token_append (.string (StringLiteral.spelledBy_text h)) hrest
  | array [] => exact .char_cons .openArray (.char_cons .closeArray hrest)
  | array (item :: items) =>
    have hclose := TokensSpelledBy.lineBreak_append level (.char_cons .closeArray hrest)
    have hitems := spelledBy_writeItems (level + 1) items h.2 hclose
    have hitem := spelledBy_write (level + 1) item h.1 hitems
    simp only [tokenList, write, List.cons_append, List.append_assoc, List.nil_append]
    exact .char_cons .openArray (.lineBreak_append (level + 1) hitem)
  | object [] => exact .char_cons .openObject (.char_cons .closeObject hrest)
  | object (member :: members) =>
    have hclose := TokensSpelledBy.lineBreak_append level (.char_cons .closeObject hrest)
    have hmembers := spelledBy_writeMembers (level + 1) members h.2 hclose
    have hmember := spelledBy_writeMember (level + 1) member h.1 hmembers
    simp only [tokenList, write, List.cons_append, List.append_assoc, List.nil_append]
    exact .char_cons .openObject (.lineBreak_append (level + 1) hmember)

theorem spelledBy_writeItems (level : Nat) (items : List Json) (h : SpellableItems items)
    {ts : List Token} {rest : List Char} (hrest : TokensSpelledBy ts rest) :
    TokensSpelledBy (itemTokens items ++ ts) (writeItems level items ++ rest) := by
  match items with
  | [] => exact hrest
  | item :: items =>
    have hitems := spelledBy_writeItems level items h.2 hrest
    have hitem := spelledBy_write level item h.1 hitems
    simp only [itemTokens, writeItems, List.cons_append, List.append_assoc]
    exact .char_cons .comma (.lineBreak_append level hitem)

theorem spelledBy_writeMember (level : Nat) (member : Member) (h : SpellableMember member)
    {ts : List Token} {rest : List Char} (hrest : TokensSpelledBy ts rest) :
    TokensSpelledBy (memberTokens member ++ ts) (writeMember level member ++ rest) := by
  match member with
  | .member key value =>
    have hvalue := spelledBy_write level value h.2 hrest
    simp only [memberTokens, writeMember, List.cons_append, List.append_assoc]
    refine .token_append (.string (StringLiteral.spelledBy_text h.1)) (.char_cons .colon ?_)
    -- A blank stands behind the colon.
    exact .blanks_append (List.forall_mem_singleton.2 rfl) hvalue

theorem spelledBy_writeMembers (level : Nat) (members : List Member)
    (h : SpellableMembers members) {ts : List Token} {rest : List Char}
    (hrest : TokensSpelledBy ts rest) :
    TokensSpelledBy (membersTokens members ++ ts) (writeMembers level members ++ rest) := by
  match members with
  | [] => exact hrest
  | member :: members =>
    have hmembers := spelledBy_writeMembers level members h.2 hrest
    have hmember := spelledBy_writeMember level member h.1 hmembers
    simp only [membersTokens, writeMembers, List.cons_append, List.append_assoc]
    exact .char_cons .comma (.lineBreak_append level hmember)

end

end RunTrace.Json
