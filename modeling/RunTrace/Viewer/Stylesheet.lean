/-!
# The stylesheet of the page

Rules for how the parts of the page look, and the text of a stylesheet: groups of rules with an
empty line between any two groups.
-/

namespace RunTrace.Stylesheet

/-- A property with its value. -/
structure Declaration where
  property : String
  value : String
  deriving DecidableEq, Repr

/-- A rule of a stylesheet. -/
inductive Rule where
  /-- Declarations for the elements that one of the selectors fits, a line for each of them. -/
  | rule (selectors : List String) (declarations : List Declaration)
  /-- A single declaration on the line of its selector. -/
  | brief (selector : String) (declaration : Declaration)
  /-- An animation: a declaration for each of its steps. -/
  | keyframes (name : String) (steps : List (String × Declaration))
  deriving DecidableEq, Repr

/-- The text of a declaration. -/
def Declaration.text (declaration : Declaration) : String :=
  declaration.property ++ ": " ++ declaration.value ++ ";"

/-- The line of a declaration behind its selector. -/
def briefLine (selector : String) (declaration : Declaration) : String :=
  selector ++ " \x7b " ++ declaration.text ++ " \x7d"

/-- The lines of a rule. -/
def Rule.lines : Rule → List String
  | rule selectors declarations =>
    (",\n".intercalate selectors ++ " \x7b")
      :: declarations.map (fun declaration => "    " ++ declaration.text) ++ ["\x7d"]
  | brief selector declaration => [briefLine selector declaration]
  | keyframes name steps =>
    ("@keyframes " ++ name ++ " \x7b")
      :: steps.map (fun (selector, declaration) => "    " ++ briefLine selector declaration)
      ++ ["\x7d"]

/-- The text of groups of rules, with an empty line in front of each group. -/
def text (groups : List (List Rule)) : String :=
  String.join (groups.map fun group =>
    "\n" ++ String.join ((group.flatMap Rule.lines).map (· ++ "\n")))

/-- How the parts of the page look. -/
def rules : List (List Rule) :=
  [
    [.rule [".rlm-trajectory"]
      [⟨"display", "flex"⟩,
        ⟨"flex-direction", "column"⟩,
        ⟨"gap", "0.6rem"⟩,
        ⟨"color", "var(--text-primary, #f8fafc)"⟩,
        ⟨"font-size", "0.8rem"⟩]],
    [.rule [".rlm-summary"]
      [⟨"display", "flex"⟩,
        ⟨"justify-content", "space-between"⟩,
        ⟨"align-items", "flex-start"⟩,
        ⟨"gap", "0.6rem"⟩,
        ⟨"border", "1px solid var(--border-color, #334155)"⟩,
        ⟨"border-radius", "10px"⟩,
        ⟨"background", "color-mix(in srgb, var(--bg-secondary, #111827) 86%, #0b1225 14%)"⟩,
        ⟨"padding", "0.55rem 0.7rem"⟩]],
    [.rule [".rlm-summary-metrics", ".rlm-summary-actions"]
      [⟨"display", "flex"⟩,
        ⟨"gap", "0.35rem"⟩,
        ⟨"flex-wrap", "wrap"⟩]],
    [.rule [".rlm-pill"]
      [⟨"border", "1px solid var(--border-color, #334155)"⟩,
        ⟨"background", "var(--bg-primary, #0f172a)"⟩,
        ⟨"color", "var(--text-secondary, #cbd5e1)"⟩,
        ⟨"border-radius", "999px"⟩,
        ⟨"font-size", "0.68rem"⟩,
        ⟨"padding", "0.2rem 0.45rem"⟩,
        ⟨"white-space", "nowrap"⟩]],
    [.rule ["button.rlm-pill"]
      [⟨"cursor", "pointer"⟩]],
    [.rule [".rlm-action"]
      [⟨"background", "color-mix(in srgb, var(--bg-primary) 75%, var(--accent-bg) 25%)"⟩,
        ⟨"border", "1px solid color-mix(in srgb, var(--border-color) 50%, var(--accent-bg) 50%)"⟩,
        ⟨"color", "var(--text-primary)"⟩,
        ⟨"border-radius", "0.45rem"⟩,
        ⟨"padding", "0.28rem 0.5rem"⟩,
        ⟨"font-size", "0.72rem"⟩,
        ⟨"cursor", "pointer"⟩]],
    [.rule [".rlm-action:disabled"]
      [⟨"opacity", "0.45"⟩,
        ⟨"cursor", "not-allowed"⟩]],
    [.rule [".rlm-tree"]
      [⟨"display", "flex"⟩,
        ⟨"flex-direction", "column"⟩,
        ⟨"gap", "0.3rem"⟩]],
    [.rule [".rlm-node-main"]
      [⟨"cursor", "pointer"⟩,
        ⟨"border-radius", "8px"⟩,
        ⟨"border", "1px solid var(--border-color, #1f2a44)"⟩,
        ⟨"background", "var(--bg-primary, #0b1222)"⟩,
        ⟨"padding", "0.35rem 0.5rem"⟩]],
    [.rule [".rlm-node-main:hover"]
      [⟨"border-color", "color-mix(in srgb, var(--border-color) 60%, var(--accent-bg) 40%)"⟩]],
    [.rule [".rlm-node-row"]
      [⟨"display", "flex"⟩,
        ⟨"align-items", "center"⟩,
        ⟨"gap", "0.45rem"⟩]],
    [.brief ".rlm-node-row--failure .rlm-glyph" ⟨"color", "#ef4444"⟩,
      .brief ".rlm-node-row--success .rlm-glyph" ⟨"color", "#22c55e"⟩,
      .brief ".rlm-node-row--running .rlm-glyph" ⟨"color", "#f59e0b"⟩],
    [.rule [".rlm-toggle", ".rlm-toggle-spacer"]
      [⟨"width", "1.2rem"⟩,
        ⟨"flex-shrink", "0"⟩]],
    [.rule [".rlm-toggle"]
      [⟨"background", "transparent"⟩,
        ⟨"border", "none"⟩,
        ⟨"color", "var(--text-secondary, #9ca3af)"⟩,
        ⟨"cursor", "pointer"⟩]],
    [.rule [".rlm-node-name"]
      [⟨"flex", "1"⟩,
        ⟨"overflow", "hidden"⟩,
        ⟨"text-overflow", "ellipsis"⟩,
        ⟨"white-space", "nowrap"⟩]],
    [.rule [".rlm-metric"]
      [⟨"color", "var(--text-secondary, #9ca3af)"⟩,
        ⟨"font-variant-numeric", "tabular-nums"⟩,
        ⟨"white-space", "nowrap"⟩]],
    [.rule [".rlm-node-error"]
      [⟨"margin", "0.3rem 0 0 1.65rem"⟩,
        ⟨"color", "#fca5a5"⟩,
        ⟨"font-size", "0.74rem"⟩]],
    [.rule [".rlm-tool-list"]
      [⟨"display", "flex"⟩,
        ⟨"flex-direction", "column"⟩,
        ⟨"gap", "0.2rem"⟩,
        ⟨"margin", "0.35rem 0 0 1.65rem"⟩]],
    [.rule [".rlm-tool-row"]
      [⟨"display", "flex"⟩,
        ⟨"gap", "0.45rem"⟩,
        ⟨"align-items", "center"⟩,
        ⟨"border-left", "2px solid var(--border-color, #334155)"⟩,
        ⟨"padding", "0.15rem 0.4rem"⟩,
        ⟨"cursor", "pointer"⟩]],
    [.brief ".rlm-tool-row--failure" ⟨"border-left-color", "#ef4444"⟩,
      .brief ".rlm-tool-row--running" ⟨"border-left-color", "#f59e0b"⟩],
    [.rule [".rlm-tool-name"]
      [⟨"flex", "1"⟩]],
    [.rule [".rlm-children"]
      [⟨"display", "flex"⟩,
        ⟨"flex-direction", "column"⟩,
        ⟨"gap", "0.3rem"⟩,
        ⟨"margin-top", "0.3rem"⟩,
        ⟨"padding-left", "1.1rem"⟩,
        ⟨"border-left", "1px solid var(--border-color, #334155)"⟩]],
    [.rule [".rlm-depth-limit"]
      [⟨"display", "flex"⟩,
        ⟨"align-items", "center"⟩,
        ⟨"gap", "0.5rem"⟩,
        ⟨"margin", "0.3rem 0 0 1.65rem"⟩,
        ⟨"color", "var(--text-secondary, #9ca3af)"⟩,
        ⟨"font-style", "italic"⟩]],
    [.rule [".rlm-skeleton"]
      [⟨"display", "flex"⟩,
        ⟨"flex-direction", "column"⟩,
        ⟨"gap", "0.4rem"⟩]],
    [.rule [".rlm-skeleton-row"]
      [⟨"height", "2rem"⟩,
        ⟨"border-radius", "8px"⟩,
        ⟨"background", "color-mix(in srgb, var(--bg-secondary, #111827) 80%, #334155 20%)"⟩,
        ⟨"animation", "rlm-pulse 1.4s ease-in-out infinite"⟩]],
    [.keyframes "rlm-pulse" [("0%, 100%", ⟨"opacity", "0.55"⟩), ("50%", ⟨"opacity", "1"⟩)]],
    [.rule [".empty-state"]
      [⟨"color", "var(--text-secondary, #9ca3af)"⟩,
        ⟨"text-align", "center"⟩,
        ⟨"padding", "1.2rem 0"⟩]]]

/-- The stylesheet of the page. -/
def page : String :=
  text rules

end RunTrace.Stylesheet
