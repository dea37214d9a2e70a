/-!
# Markup

A run of text and elements, with the actions that clicks on elements stand for. A click on an
element is offered to the handlers of the element and of those around it, from the inside
out, until one of them keeps it.
-/

namespace RunTrace

/-- What a click on an element does. -/
structure ClickHandler (α : Type) where
  /-- The action that is dispatched. -/
  action : α
  /-- Whether the click is kept from the elements around this one. -/
  stops : Bool
  deriving DecidableEq, Repr

/-- An attribute of an element. -/
inductive Attribute where
  /-- The classes of the element. -/
  | classes (names : List String)
  | text (name value : String)
  | truth (name : String) (value : Bool)
  deriving DecidableEq, Repr

/-- An element without its contents. -/
structure Element (α : Type) where
  tag : String
  attributes : List Attribute
  onClick : Option (ClickHandler α)
  deriving DecidableEq, Repr

/-- A run of markup: nothing, or a text or an element followed by more. -/
inductive Markup (α : Type) where
  | nil
  | text (content : String) (rest : Markup α)
  | element (element : Element α) (contents rest : Markup α)
  deriving DecidableEq, Repr

namespace Element

variable {α : Type}

/-- The classes of an element. -/
def classes (element : Element α) : List String :=
  element.attributes.flatMap fun
    | .classes names => names
    | _ => []

/-- Whether an element has a class. -/
def hasClass (element : Element α) (name : String) : Bool :=
  element.classes.contains name

end Element

namespace Markup

variable {α : Type}

/-- A text by itself. -/
def ofText (content : String) : Markup α :=
  .text content .nil

/-- An element by itself, with classes. -/
def tagged (tag : String) (classes : List String) (contents : Markup α) : Markup α :=
  .element ⟨tag, [.classes classes], none⟩ contents .nil

/-- An element by itself, with classes, that reacts to clicks. -/
def clickable (tag : String) (classes : List String) (attributes : List Attribute)
    (onClick : ClickHandler α) (contents : Markup α) : Markup α :=
  .element ⟨tag, .classes classes :: attributes, some onClick⟩ contents .nil

/-- One run of markup behind another. -/
def append : Markup α → Markup α → Markup α
  | nil, more => more
  | text content rest, more => .text content (rest.append more)
  | element e contents rest, more => .element e contents (rest.append more)

instance : Append (Markup α) := ⟨append⟩

/-- Several runs of markup one behind the other. -/
def join (parts : List (Markup α)) : Markup α :=
  parts.foldr (· ++ ·) .nil

/-! ## Clicks -/

/-- For every element of the markup, in document order, the element and those around it from
the inside out; `outer` are those around the markup. -/
def chains (outer : List (Element α)) : Markup α → List (List (Element α))
  | nil => []
  | text _ rest => rest.chains outer
  | element e contents rest =>
    (e :: outer) :: (contents.chains (e :: outer) ++ rest.chains outer)

/-- The actions that a click dispatches, for the element that is clicked and those around it
from the inside out. -/
def clickActions : List (Element α) → List α
  | [] => []
  | e :: outer =>
    match e.onClick with
    | none => clickActions outer
    | some handler => handler.action :: if handler.stops then [] else clickActions outer

/-! ## HTML -/

/-- How a character of a text is written. -/
def escapeChar (c : Char) : List Char :=
  match c with
  | '&' => ['&', '#', '3', '8', ';']
  | '<' => ['&', '#', '6', '0', ';']
  | '>' => ['&', '#', '6', '2', ';']
  | '"' => ['&', '#', '3', '4', ';']
  | '\'' => ['&', '#', '3', '9', ';']
  | c => [c]

/-- How a text is written. -/
def escape (text : String) : String :=
  String.ofList (text.toList.flatMap escapeChar)

/-- How an attribute is written, with a blank in front. -/
def attributeHtml : Attribute → String
  | .classes names => " class=\"" ++ escape (" ".intercalate names) ++ "\""
  | .text name value => " " ++ name ++ "=\"" ++ escape value ++ "\""
  | .truth name value => " " ++ name ++ "=" ++ (if value then "true" else "false")

/-- The markup as HTML, without any blanks between elements. -/
def html : Markup α → String
  | nil => ""
  | text content rest => escape content ++ rest.html
  | element e contents rest =>
    "<" ++ e.tag ++ String.join (e.attributes.map attributeHtml) ++ ">" ++ contents.html
      ++ "</" ++ e.tag ++ ">" ++ rest.html

end Markup

end RunTrace
