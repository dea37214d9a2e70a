import RunTrace.Proofs.Json.Document
import RunTrace.Proofs.Json.Spelling

/-!
# Texts and the documents that they spell

A document is spelled by its tokens in order, however each of them is spelled, with any blanks
between them. The reader takes a text apart again: where it is tells which tokens it has taken, and
it gets to the end without breaking off only if it has taken all tokens of a document. So a text
spells no more than one document, and it is this one that is read.

## Main results

* `Advances.of_rest`: what one step of the reader takes, in front of what the others take;
* `rest_of_readFrom`: the tokens of a text that is read without breaking off;
* `ofText_eq_iff`: a text is read as a document exactly if it spells it.
-/

namespace RunTrace.Json

/-- A text spells a document: nothing breaks off, and its tokens are those of the document. -/
def SpelledBy (document : Json) (text : List Char) : Prop :=
  Complete document ∧ TokensSpelledBy (tokenList document) text

/-! ## From documents to texts -/

theorem separated_cons {token : Token} {ts : List Token} (hnumber : token.isNumber = false)
    (h : Separated ts) : Separated (token :: ts) :=
  List.isChain_cons.2 ⟨fun _ _ hfirst => absurd (hnumber.symm.trans hfirst) (by decide), h⟩

/-- A token that is no number may stand behind any other. -/
theorem separated_cons_cons {token : Token} {ts : List Token} (hnumber : token.isNumber = false)
    (h : Separated ts) (before : Token) : Separated (before :: token :: ts) :=
  List.isChain_cons.2 ⟨fun _ hnext _ => Option.some.inj hnext ▸ hnumber,
    separated_cons hnumber h⟩

mutual

/-- In a document, no number stands directly behind another one. What follows it is such that
anything may stand in front of it. -/
theorem separated_tokenList (value : Json) {rest : List Token}
    (hrest : ∀ before, Separated (before :: rest)) : Separated (tokenList value ++ rest) := by
  have hnone : Separated rest := (List.isChain_cons.1 (hrest .comma)).2
  match value with
  | null | boolean _ | string _ => exact separated_cons rfl hnone
  | number literal => exact hrest (.number literal)
  | array [] | object [] => exact separated_cons rfl (separated_cons rfl hnone)
  | array (item :: items) =>
    simp only [tokenList, List.cons_append, List.append_assoc]
    refine separated_cons rfl (separated_tokenList item fun before => ?_)
    exact separated_itemTokens items (separated_cons_cons rfl hnone) before
  | object (member :: members) =>
    simp only [tokenList, List.cons_append, List.append_assoc]
    refine separated_cons rfl (separated_memberTokens member fun before => ?_)
    exact separated_membersTokens members (separated_cons_cons rfl hnone) before
  | torn _ => exact hnone

theorem separated_itemTokens (items : List Json) {rest : List Token}
    (hrest : ∀ before, Separated (before :: rest)) (before : Token) :
    Separated (before :: (itemTokens items ++ rest)) := by
  match items with
  | [] => exact hrest before
  | item :: items =>
    simp only [itemTokens, List.cons_append, List.append_assoc]
    refine separated_cons_cons rfl (separated_tokenList item fun between => ?_) before
    exact separated_itemTokens items hrest between

theorem separated_memberTokens (member : Member) {rest : List Token}
    (hrest : ∀ before, Separated (before :: rest)) : Separated (memberTokens member ++ rest) := by
  match member with
  | .member key value =>
    exact separated_cons rfl (separated_cons rfl (separated_tokenList value hrest))
  | .torn _ => exact (List.isChain_cons.1 (hrest .comma)).2

theorem separated_membersTokens (members : List Member) {rest : List Token}
    (hrest : ∀ before, Separated (before :: rest)) (before : Token) :
    Separated (before :: (membersTokens members ++ rest)) := by
  match members with
  | [] => exact hrest before
  | member :: members =>
    simp only [membersTokens, List.cons_append, List.append_assoc]
    refine separated_cons_cons rfl (separated_memberTokens member fun between => ?_) before
    exact separated_membersTokens members hrest between

end

/-- A document is read from each of its spellings. -/
theorem ofText_of_spelledBy {document : Json} {text : List Char} (h : document.SpelledBy text) :
    Document.ofText text = ⟨document, false⟩ := by
  obtain ⟨complete, spelled⟩ := h
  -- As no two numbers stand side by side, the tokens are scanned, and then read one by one.
  have hseparated : Separated (tokenList document ++ []) :=
    separated_tokenList document fun _ => List.isChain_singleton _
  rw [List.append_nil] at hseparated
  have hread := readFrom_tokenList document complete [] []
  rw [List.append_nil] at hread
  rw [Document.ofText, tokens_of_spelledBy spelled hseparated, Document.ofTokens, hread]
  rfl

mutual

/-- Nothing breaks off in a value that can be written. -/
theorem complete_of_spellable (value : Json) (h : Spellable value) : Complete value := by
  match value with
  | null | boolean _ | number _ => trivial
  | string literal => exact h.closed
  | array items => exact completeItems_of_spellable items h
  | object members => exact completeMembers_of_spellable members h

theorem completeItems_of_spellable (items : List Json) (h : SpellableItems items) :
    CompleteItems items := by
  match items with
  | [] => trivial
  | item :: items =>
    exact ⟨complete_of_spellable item h.1, completeItems_of_spellable items h.2⟩

theorem completeMembers_of_spellable (members : List Member) (h : SpellableMembers members) :
    CompleteMembers members := by
  match members with
  | [] => trivial
  | .member key value :: members =>
    exact ⟨⟨h.1.1.closed, complete_of_spellable value h.1.2⟩,
      completeMembers_of_spellable members h.2⟩

end

/-- What is written for a document spells it. -/
theorem spelledBy_text {document : Json} (h : Spellable document) :
    document.SpelledBy document.text.toList := by
  have hwritten := spelledBy_write 0 document h (.nil (List.forall_mem_nil _))
  rw [List.append_nil, List.append_nil] at hwritten
  rw [text, String.toList_ofList]
  exact ⟨complete_of_spellable document h, hwritten⟩

/-- A document that can be written is read from its text, and nothing follows it. -/
theorem ofText_text {document : Json} (h : Spellable document) :
    Document.ofText document.text.toList = ⟨document, false⟩ :=
  ofText_of_spelledBy (spelledBy_text h)

/-! ## From texts to documents -/

/-- The tokens of items that have others behind them, the last of the items first. -/
def tokensOfItems (items : List Json) : List Token :=
  items.reverse.flatMap fun item => tokenList item ++ [.comma]

/-- The tokens of members that have others behind them, the last of the members first. -/
def tokensOfMembers (members : List Member) : List Token :=
  members.reverse.flatMap fun member => memberTokens member ++ [.comma]

/-- The tokens from the bracket of a frame up to the value that is read in it. -/
def Frame.taken : Frame → List Token
  | array items => .openArray :: tokensOfItems items
  | object members key => .openObject :: (tokensOfMembers members ++ [.string key, .colon])

/-- The tokens up to the value that is read in the innermost of the frames. -/
def takenBefore : List Frame → List Token
  | [] => []
  | frame :: outer => takenBefore outer ++ frame.taken

/-- The tokens that have been read in the innermost array or object that is open. -/
def Position.taken : Position → List Token
  | value => []
  | firstItem => [.openArray]
  -- The reader is behind an item only if there is one, see `Reached`.
  | afterItem [] => [.openArray]
  | afterItem (item :: items) => .openArray :: (tokensOfItems items ++ tokenList item)
  | firstKey => [.openObject]
  | nextKey members => .openObject :: tokensOfMembers members
  | afterKey members key => .openObject :: (tokensOfMembers members ++ [.string key])
  | afterMember [] => [.openObject]
  | afterMember (member :: members) =>
    .openObject :: (tokensOfMembers members ++ memberTokens member)
  | complete root => tokenList root

/-- Nothing has broken off in front of the value that is read in a frame. -/
def Frame.Whole : Frame → Prop
  | array items => CompleteItems items
  | object members key => CompleteMembers members ∧ key.tear = none

/-- Nothing has broken off in the innermost array or object that is open. -/
def Position.Whole : Position → Prop
  | value | firstItem | firstKey => True
  | afterItem items => CompleteItems items
  | nextKey members | afterMember members => CompleteMembers members
  | afterKey members key => CompleteMembers members ∧ key.tear = none
  | complete root => Complete root

/-- Behind an item there is one, behind a member there is one, and behind the document nothing is
open any more. -/
def Reached (outer : List Frame) : Position → Prop
  | .afterItem items => items ≠ []
  | .afterMember members => members ≠ []
  | .complete _ => outer = []
  | _ => True

/-- Nothing has broken off so far. -/
def WholeAt (outer : List Frame) (position : Position) : Prop :=
  (∀ frame ∈ outer, frame.Whole) ∧ position.Whole

/-- The tokens that have been read so far. -/
def takenAt (outer : List Frame) (position : Position) : List Token :=
  takenBefore outer ++ position.taken

section

variable {outer : List Frame} {position : Position}

/-- The first thing of several stands in front of the commas of the others, and the last one of
them stands behind its own comma. -/
theorem append_flatMap_comma {α : Type} (f : α → List Token) (first last : α) (others : List α) :
    f first ++ (others ++ [last]).flatMap (.comma :: f ·) =
      (first :: others).flatMap (f · ++ [.comma]) ++ f last := by
  -- The comma behind the first thing is the one in front of the next.
  induction others generalizing first with
  | nil => simp
  | cons next others ih =>
    rw [List.flatMap_cons, List.append_assoc, ← ih next, List.cons_append, List.flatMap_cons]
    simp

theorem itemTokens_eq_flatMap (items : List Json) :
    itemTokens items = items.flatMap (.comma :: tokenList ·) := by
  induction items with
  | nil => rfl
  | cons item items ih => rw [itemTokens, ih, List.flatMap_cons]

theorem membersTokens_eq_flatMap (members : List Member) :
    membersTokens members = members.flatMap (.comma :: memberTokens ·) := by
  induction members with
  | nil => rfl
  | cons member members ih => rw [membersTokens, ih, List.flatMap_cons]

/-- The tokens of an array by its last item. -/
theorem tokenList_array_reverse (item : Json) (items : List Json) :
    tokenList (.array (item :: items).reverse) =
      .openArray :: (tokensOfItems items ++ (tokenList item ++ [.closeArray])) := by
  rw [List.reverse_cons, tokensOfItems]
  cases items.reverse with
  | nil => simp [tokenList, itemTokens]
  | cons first others =>
    rw [List.cons_append, tokenList, itemTokens_eq_flatMap, List.cons_append,
      append_flatMap_comma, List.cons_append, List.append_assoc]

/-- The tokens of an object by its last member. -/
theorem tokenList_object_reverse (member : Member) (members : List Member) :
    tokenList (.object (member :: members).reverse) =
      .openObject :: (tokensOfMembers members ++ (memberTokens member ++ [.closeObject])) := by
  rw [List.reverse_cons, tokensOfMembers]
  cases members.reverse with
  | nil => simp [tokenList, membersTokens]
  | cons first others =>
    rw [List.cons_append, tokenList, membersTokens_eq_flatMap, List.cons_append,
      append_flatMap_comma, List.cons_append, List.append_assoc]

theorem tokensOfItems_cons (item : Json) (items : List Json) :
    tokensOfItems (item :: items) = tokensOfItems items ++ (tokenList item ++ [.comma]) := by
  simp [tokensOfItems]

theorem tokensOfMembers_cons (member : Member) (members : List Member) :
    tokensOfMembers (member :: members) =
      tokensOfMembers members ++ (memberTokens member ++ [.comma]) := by
  simp [tokensOfMembers]

/-- When a value has been read, its tokens have been taken. -/
theorem takenAt_after (value : Json) (outer : List Frame) :
    takenAt (Position.after value outer).1 (Position.after value outer).2 =
      takenBefore outer ++ tokenList value := by
  match outer with
  | [] => rfl
  | .array items :: outer =>
    simp [Position.after, takenAt, takenBefore, Position.taken, Frame.taken]
  | .object members key :: outer =>
    simp [Position.after, takenAt, takenBefore, Position.taken, Frame.taken, memberTokens]

theorem wholeAt_after {value : Json}
    (h : WholeAt (Position.after value outer).1 (Position.after value outer).2) :
    (∀ frame ∈ outer, frame.Whole) ∧ Complete value := by
  obtain ⟨hframes, hposition⟩ := h
  match outer with
  | [] => exact ⟨List.forall_mem_nil _, hposition⟩
  | .array items :: outer =>
    exact ⟨List.forall_mem_cons.2 ⟨hposition.2, hframes⟩, hposition.1⟩
  | .object members key :: outer =>
    exact ⟨List.forall_mem_cons.2 ⟨⟨hposition.2, hposition.1.1⟩, hframes⟩, hposition.1.2⟩

theorem reached_after (value : Json) (outer : List Frame) :
    Reached (Position.after value outer).1 (Position.after value outer).2 := by
  match outer with
  | [] => rfl
  | .array _ :: _ | .object _ _ :: _ => exact List.cons_ne_nil _ _

/-- Nothing breaks off in what is enclosed in a document in which nothing does. -/
theorem complete_of_enclose {value : Json} (h : Complete (enclose value outer)) :
    Complete value := by
  -- The value is the last one of the frame around it, which is enclosed in the others.
  induction outer generalizing value with
  | nil => exact h
  | cons frame outer ih =>
    cases frame with
    | array items =>
      exact completeItems_iff.1 (ih h) value (List.mem_reverse.2 List.mem_cons_self)
    | object members key =>
      exact (completeMembers_iff.1 (ih h) _ (List.mem_reverse.2 List.mem_cons_self)).2

theorem not_complete_tearArray (items : List Json) (tear : Tear) (outer : List Frame) :
    ¬ Complete (tearArray items tear outer) := fun h =>
  completeItems_iff.1 (complete_of_enclose h) _ (List.mem_reverse.2 List.mem_cons_self)

theorem not_complete_tearObject (members : List Member) {last : Member}
    (hlast : ¬ CompleteMember last) (outer : List Frame) :
    ¬ Complete (tearObject members last outer) := fun h =>
  hlast (completeMembers_iff.1 (complete_of_enclose h) _ (List.mem_reverse.2 List.mem_cons_self))

/-- A text that ends at a position breaks off there, unless its document has been read. -/
theorem exists_of_complete_finish (h : Complete (position.finish outer)) :
    ∃ root, position = .complete root := by
  cases position with
  | complete root => exact ⟨root, rfl⟩
  | value => exact (complete_of_enclose h).elim
  | firstItem | afterItem _ => exact absurd h (not_complete_tearArray _ _ _)
  | firstKey | nextKey _ | afterMember _ => exact absurd h (not_complete_tearObject _ id _)
  | afterKey _ key =>
    have hlast : ¬ CompleteMember (.member key (.torn .unclosedObject)) := fun hlast => hlast.2
    exact absurd h (not_complete_tearObject _ hlast _)

/-- A scalar takes its one token. -/
theorem tokenList_of_scalar {token : Token} {value : Json} (h : token.scalar? = some value)
    (complete : Complete value) : tokenList value = [token] ∧ token.Whole := by
  cases token with
  | null | boolean _ | number _ =>
    cases h
    exact ⟨rfl, trivial⟩
  | string literal =>
    cases h
    exact ⟨rfl, complete⟩
  | broken tear =>
    cases h
    exact complete.elim
  | openArray | closeArray | openObject | closeObject | comma | colon => cases h

/-- A step of the reader from one place to another takes a token and breaks nothing off. -/
structure Advances (outer : List Frame) (position : Position) (token : Token)
    (outer' : List Frame) (position' : Position) : Prop where
  reached : Reached outer position → Reached outer' position'
  whole : WholeAt outer' position' → WholeAt outer position ∧ token.Whole
  taken : Reached outer position → WholeAt outer' position' →
    takenAt outer' position' = takenAt outer position ++ [token]

/-- What is left at a place are the tokens that are missing of a document. -/
def Rest (outer : List Frame) (position : Position) (ts : List Token) (root : Json) : Prop :=
  WholeAt outer position ∧ (∀ token ∈ ts, token.Whole) ∧
    takenAt outer position ++ ts = tokenList root

/-- A step within the array or object that is open. -/
theorem Advances.within {position' : Position} {token : Token} (reached : Reached outer position')
    (whole : position'.Whole → position.Whole ∧ token.Whole)
    (taken : Reached outer position → position'.Whole →
      position'.taken = position.taken ++ [token]) :
    Advances outer position token outer position' where
  reached _ := reached
  whole h := ⟨⟨h.1, (whole h.2).1⟩, (whole h.2).2⟩
  taken hreached h := by rw [takenAt, takenAt, taken hreached h.2, List.append_assoc]

/-- A step to a value within the array or object that is open. -/
theorem Advances.enter {frame : Frame} {position' : Position} {token : Token}
    (reached : Reached (frame :: outer) position')
    (whole : frame.Whole → position.Whole ∧ token.Whole)
    (taken : Reached outer position →
      frame.taken ++ position'.taken = position.taken ++ [token]) :
    Advances outer position token (frame :: outer) position' where
  reached _ := reached
  whole h := by
    obtain ⟨hframe, hframes⟩ := List.forall_mem_cons.1 h.1
    exact ⟨⟨hframes, (whole hframe).1⟩, (whole hframe).2⟩
  taken hreached _ := by
    rw [takenAt, takenAt, takenBefore, List.append_assoc, taken hreached, List.append_assoc]

/-- A step behind a value, which is a scalar or has been closed. -/
theorem Advances.after {token : Token} {value : Json}
    (whole : Complete value → position.Whole ∧ token.Whole)
    (taken : Reached outer position → Complete value →
      tokenList value = position.taken ++ [token]) :
    Advances outer position token (Position.after value outer).1
      (Position.after value outer).2 where
  reached _ := reached_after value outer
  whole h := by
    obtain ⟨hframes, hvalue⟩ := wholeAt_after h
    exact ⟨⟨hframes, (whole hvalue).1⟩, (whole hvalue).2⟩
  taken hreached h := by
    rw [takenAt_after, taken hreached (wholeAt_after h).2, takenAt, List.append_assoc]

/-- A step takes its token from what is left. -/
theorem Advances.of_rest {token : Token} {ts : List Token} {root : Json} {outer' : List Frame}
    {position' : Position} (h : Advances outer position token outer' position')
    (reached : Reached outer position)
    (rest : Reached outer' position' → Rest outer' position' ts root) :
    Rest outer position (token :: ts) root := by
  obtain ⟨hwhole, htokens, htaken⟩ := rest (h.reached reached)
  obtain ⟨hbefore, htoken⟩ := h.whole hwhole
  refine ⟨hbefore, List.forall_mem_cons.2 ⟨htoken, htokens⟩, ?_⟩
  rw [← htaken, h.taken reached hwhole, List.append_assoc, List.singleton_append]

theorem advances_afterItem_comma (items : List Json) :
    Advances outer (.afterItem items) .comma (.array items :: outer) .value := by
  refine .enter trivial (fun h => ⟨h, trivial⟩) fun reached => ?_
  obtain ⟨item, items, rfl⟩ := List.exists_cons_of_ne_nil reached
  simp [Frame.taken, Position.taken, tokensOfItems_cons]

theorem advances_afterMember_comma (members : List Member) :
    Advances outer (.afterMember members) .comma outer (.nextKey members) := by
  refine .within trivial (fun h => ⟨h, trivial⟩) fun reached _ => ?_
  obtain ⟨member, members, rfl⟩ := List.exists_cons_of_ne_nil reached
  simp [Position.taken, tokensOfMembers_cons]

theorem advances_closeArray (items : List Json) :
    Advances outer (.afterItem items) .closeArray (Position.after (.array items.reverse) outer).1
      (Position.after (.array items.reverse) outer).2 := by
  refine .after (fun h => ⟨?_, trivial⟩) fun reached _ => ?_
  · exact completeItems_iff.2 fun item hitem =>
      completeItems_iff.1 h item (List.mem_reverse.2 hitem)
  · obtain ⟨item, items, rfl⟩ := List.exists_cons_of_ne_nil reached
    rw [tokenList_array_reverse, Position.taken, List.cons_append, List.append_assoc]

theorem advances_closeObject (members : List Member) :
    Advances outer (.afterMember members) .closeObject
      (Position.after (.object members.reverse) outer).1
      (Position.after (.object members.reverse) outer).2 := by
  refine .after (fun h => ⟨?_, trivial⟩) fun reached _ => ?_
  · exact completeMembers_iff.2 fun member hmember =>
      completeMembers_iff.1 h member (List.mem_reverse.2 hmember)
  · obtain ⟨member, members, rfl⟩ := List.exists_cons_of_ne_nil reached
    rw [tokenList_object_reverse, Position.taken, List.cons_append, List.append_assoc]

/-- A text that is read without breaking off has the tokens of its document. -/
theorem rest_of_readFrom {outer : List Frame} {position : Position} {ts : List Token} {root : Json}
    (h : readFrom outer position ts = ⟨root, false⟩) (complete : Complete root)
    (reached : Reached outer position) : Rest outer position ts root := by
  -- The cases are those of the reader, in its order; at each stop, the document is torn.
  fun_induction readFrom outer position ts with
  | case1 outer position =>
    obtain rfl : position.finish outer = root := (Document.mk.inj h).1
    obtain ⟨root, rfl⟩ := exists_of_complete_finish complete
    obtain rfl : outer = [] := reached
    exact ⟨⟨List.forall_mem_nil _, complete⟩, List.forall_mem_nil _, List.append_nil _⟩
  | case2 outer ts ih | case3 outer ts ih =>
    refine Advances.of_rest ?_ reached (ih h)
    exact .within trivial (fun _ => ⟨trivial, trivial⟩) fun _ _ => rfl
  | case4 outer ts token _ _ value hvalue ih =>
    refine Advances.of_rest ?_ reached (ih h)
    exact .after (fun hv => ⟨trivial, (tokenList_of_scalar hvalue hv).2⟩) fun _ hv =>
      (tokenList_of_scalar hvalue hv).1
  | case7 outer ts ih =>
    refine Advances.of_rest ?_ reached (ih h)
    exact .after (fun _ => ⟨trivial, trivial⟩) fun _ _ => rfl
  | case8 outer ts ih | case9 outer ts ih =>
    refine Advances.of_rest ?_ reached (ih h)
    exact .enter trivial (fun _ => ⟨trivial, trivial⟩) fun _ => rfl
  | case10 outer ts token _ _ _ value hvalue ih =>
    refine Advances.of_rest ?_ reached (ih h)
    refine .within (List.cons_ne_nil _ _) (fun hv => ?_) fun _ hv => ?_
    · exact ⟨trivial, (tokenList_of_scalar hvalue hv.1).2⟩
    · exact congrArg (Token.openArray :: ·) (tokenList_of_scalar hvalue hv.1).1
  | case12 outer ts items ih => exact (advances_afterItem_comma items).of_rest reached (ih h)
  | case13 outer ts items value ih => exact (advances_closeArray items).of_rest reached (ih h)
  | case15 outer ts ih =>
    refine Advances.of_rest ?_ reached (ih h)
    exact .after (fun _ => ⟨trivial, trivial⟩) fun _ _ => rfl
  | case16 outer ts key ih =>
    refine Advances.of_rest ?_ reached (ih h)
    exact .within trivial (fun hkey => ⟨trivial, hkey.2⟩) fun _ _ => rfl
  | case18 outer ts members key ih =>
    refine Advances.of_rest ?_ reached (ih h)
    exact .within trivial (fun hkey => hkey) fun _ _ => rfl
  | case21 outer ts members key ih =>
    refine Advances.of_rest ?_ reached (ih h)
    refine .enter trivial (fun hkey => ⟨hkey, trivial⟩) fun _ => ?_
    simp [Frame.taken, Position.taken]
  | case23 outer ts members ih => exact (advances_afterMember_comma members).of_rest reached (ih h)
  | case24 outer ts members value ih => exact (advances_closeObject members).of_rest reached (ih h)
  | case26 => cases h
  | case5 | case6 =>
    obtain rfl := (Document.mk.inj h).1
    exact (complete_of_enclose complete).elim
  | case11 | case14 =>
    obtain rfl := (Document.mk.inj h).1
    exact absurd complete (not_complete_tearArray _ _ _)
  | case17 | case19 | case20 | case25 =>
    obtain rfl := (Document.mk.inj h).1
    exact absurd complete (not_complete_tearObject _ id _)
  | case22 outer token ts members key =>
    obtain rfl := (Document.mk.inj h).1
    have hlast : ¬ CompleteMember (.member key (.torn .missingColon)) := fun hlast => hlast.2
    exact absurd complete (not_complete_tearObject _ hlast _)

end

/-- A text in which nothing breaks off is a spelling of the document that is read from it. -/
theorem spelledBy_of_ofText {document : Json} {text : List Char}
    (h : Document.ofText text = ⟨document, false⟩) (complete : Complete document) :
    document.SpelledBy text := by
  obtain ⟨-, whole, htokens⟩ := rest_of_readFrom h complete trivial
  have hspelled := spelledBy_tokens whole
  rw [show tokens text = tokenList document from htokens] at hspelled
  exact ⟨complete, hspelled⟩

/-- A text is read as a document, without breaking off and with nothing behind it, exactly if it
spells that document. -/
theorem ofText_eq_iff {document : Json} {text : List Char} :
    Document.ofText text = ⟨document, false⟩ ∧ Complete document ↔ document.SpelledBy text :=
  ⟨fun h => spelledBy_of_ofText h.1 h.2, fun h => ⟨ofText_of_spelledBy h, h.1⟩⟩

/-- A text spells no more than one document. -/
theorem SpelledBy.eq {document other : Json} {text : List Char} (h : document.SpelledBy text)
    (hother : other.SpelledBy text) : document = other :=
  (Document.mk.inj ((ofText_of_spelledBy h).symm.trans (ofText_of_spelledBy hother))).1

end RunTrace.Json
