import RunTrace.Json.Reader
import RunTrace.Proofs.Json.Complete
import RunTrace.Proofs.Json.Tokens

/-!
# The tokens of a document, read

The reader keeps what is open in a stack. Whatever the stack is, the tokens of a value take the
reader to where it is once that value has been read.

## Main results

* `readFrom_tokenList`: reading the tokens of a value, whatever is open around it.
-/

namespace RunTrace.Json

/-- In front of its first item, an array reads a value as behind a comma. -/
theorem readFrom_firstItem (item : Json) (h : Complete item) (outer : List Frame)
    (rest : List Token) :
    readFrom outer .firstItem (tokenList item ++ rest) =
      readFrom (.array [] :: outer) .value (tokenList item ++ rest) := by
  match item with
  | null => rfl
  | boolean value => rfl
  | number literal => rfl
  | string literal => rfl
  | array [] => rfl
  | array (item :: items) => rfl
  | object [] => rfl
  | object (member :: members) => rfl

mutual

/-- The tokens of a value take the reader to where that value has been read. -/
theorem readFrom_tokenList (value : Json) (h : Complete value) (outer : List Frame)
    (rest : List Token) :
    readFrom outer .value (tokenList value ++ rest) =
      readFrom (Position.after value outer).1 (Position.after value outer).2 rest := by
  match value with
  | null => rfl
  | boolean value => rfl
  | number literal => rfl
  | string literal => rfl
  | array [] => rfl
  | array (item :: items) =>
    have hopen : readFrom outer .value (tokenList (array (item :: items)) ++ rest) =
        readFrom outer .firstItem
          (tokenList item ++ (itemTokens items ++ .closeArray :: rest)) := by
      simp only [tokenList, List.cons_append, List.append_assoc]
      rfl
    -- The bracket has been read, then the first item is, and then the others.
    rw [hopen, readFrom_firstItem item h.1, readFrom_tokenList item h.1]
    exact readFrom_itemTokens items h.2 [item] outer rest
  | object [] => rfl
  | object (.member key value :: members) =>
    have hopen : readFrom outer .value
          (tokenList (object (.member key value :: members)) ++ rest) =
        readFrom (.object [] key :: outer) .value
          (tokenList value ++ (membersTokens members ++ .closeObject :: rest)) := by
      simp only [tokenList, memberTokens, List.cons_append, List.append_assoc]
      rfl
    rw [hopen, readFrom_tokenList value h.1.2]
    exact readFrom_membersTokens members h.2 [.member key value] outer rest

/-- The tokens of further items take the reader to the end of the array. -/
theorem readFrom_itemTokens (items : List Json) (h : CompleteItems items) (done : List Json)
    (outer : List Frame) (rest : List Token) :
    readFrom outer (.afterItem done) (itemTokens items ++ .closeArray :: rest) =
      readFrom (Position.after (.array (done.reverse ++ items)) outer).1
        (Position.after (.array (done.reverse ++ items)) outer).2 rest := by
  match items with
  | [] =>
    rw [List.append_nil]
    rfl
  | item :: items =>
    have hcomma : readFrom outer (.afterItem done)
          (itemTokens (item :: items) ++ .closeArray :: rest) =
        readFrom (.array done :: outer) .value
          (tokenList item ++ (itemTokens items ++ .closeArray :: rest)) := by
      simp only [itemTokens, List.cons_append, List.append_assoc]
      rfl
    -- Items are collected in reverse, so the one that was read goes to the end of the array.
    have hitems := readFrom_itemTokens items h.2 (item :: done) outer rest
    rw [List.reverse_cons, List.append_assoc, List.singleton_append] at hitems
    rw [hcomma, readFrom_tokenList item h.1]
    exact hitems

/-- The tokens of further members take the reader to the end of the object. -/
theorem readFrom_membersTokens (members : List Member) (h : CompleteMembers members)
    (done : List Member) (outer : List Frame) (rest : List Token) :
    readFrom outer (.afterMember done) (membersTokens members ++ .closeObject :: rest) =
      readFrom (Position.after (.object (done.reverse ++ members)) outer).1
        (Position.after (.object (done.reverse ++ members)) outer).2 rest := by
  match members with
  | [] =>
    rw [List.append_nil]
    rfl
  | .member key value :: members =>
    have hcomma : readFrom outer (.afterMember done)
          (membersTokens (.member key value :: members) ++ .closeObject :: rest) =
        readFrom (.object done key :: outer) .value
          (tokenList value ++ (membersTokens members ++ .closeObject :: rest)) := by
      simp only [membersTokens, memberTokens, List.cons_append, List.append_assoc]
      rfl
    have hmembers := readFrom_membersTokens members h.2 (.member key value :: done) outer rest
    rw [List.reverse_cons, List.append_assoc, List.singleton_append] at hmembers
    rw [hcomma, readFrom_tokenList value h.1.2]
    exact hmembers

end

end RunTrace.Json
