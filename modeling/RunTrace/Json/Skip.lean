import RunTrace.Json.Basic

/-!
# Skipping JSON values

A value that nobody asks for still has to be well-formed, but is looked at less closely than
one that is read: numbers may be out of range and surrogates unpaired.
-/

namespace RunTrace.Json

/-- Skips a string literal. -/
def StringLiteral.skip (literal : StringLiteral) : Except SyntaxError Unit :=
  match literal.tear with
  | none => .ok ()
  | some tear => .error tear.error

mutual

/-- Skips a value; the first place at which it breaks off is an error. -/
def skip : Json → Except SyntaxError Unit
  | null | boolean _ | number _ => .ok ()
  | string literal => literal.skip
  | array items => skipItems items
  | object members => skipMembers members
  | torn tear => .error tear.whenSkipped

/-- Skips the items of an array. -/
def skipItems : List Json → Except SyntaxError Unit
  | [] => .ok ()
  | item :: items => do
    skip item
    skipItems items

/-- Skips a member of an object. -/
def skipMember : Member → Except SyntaxError Unit
  | .member key value => do
    key.skip
    skip value
  | .torn tear => .error tear.whenSkipped

/-- Skips the members of an object. -/
def skipMembers : List Member → Except SyntaxError Unit
  | [] => .ok ()
  | member :: members => do
    skipMember member
    skipMembers members

end

end RunTrace.Json
