import Mathlib.Data.List.Forall2
import RunTrace.Proofs.Page.Clicks
import RunTrace.Proofs.Visibility
import RunTrace.Outline

/-!
# What the page says

The page and the outline present the same view, the one as elements inside of each other and the
other as lines of text. Here the elements of the subcalls are taken from the page in document order,
each with what is around it, and what they say by themselves is read off. This is what the lines of
the outline say.

## Main results

* `Page.presents_nodesMarkup`: the elements of a rendered forest present its rows one by one;
* `Page.presents_markup`: the page and the outline of a view present the same rows in the same
  order, and with the same texts.
-/

namespace RunTrace

/-- An element of some markup, by what is inside of it and by the elements around it from the inside
out. -/
structure Occurrence (α : Type) where
  contents : Markup α
  around : List (Element α)

namespace Element

variable {α : Type} (tag : String) (attributes : List Attribute) (onClick : Option (ClickHandler α))
  (name : String)

@[simp]
theorem hasClass_nil : hasClass ⟨tag, [], onClick⟩ name = false := rfl

@[simp]
theorem hasClass_classes (names : List String) :
    hasClass ⟨tag, .classes names :: attributes, onClick⟩ name =
      (decide (name ∈ names) || hasClass ⟨tag, attributes, onClick⟩ name) := by
  simp [hasClass, classes]

@[simp]
theorem hasClass_truth (label : String) (value : Bool) :
    hasClass ⟨tag, .truth label value :: attributes, onClick⟩ name =
      hasClass ⟨tag, attributes, onClick⟩ name := rfl

end Element

namespace Markup

variable {α : Type}

/-- The elements of a kind, in document order; `around` are those around the markup. -/
def occurrences (kind : Element α → Bool) (around : List (Element α)) :
    Markup α → List (Occurrence α)
  | nil => []
  | text _ rest => rest.occurrences kind around
  | element e contents rest =>
    (if kind e then [⟨contents, around⟩] else [])
      ++ (contents.occurrences kind (e :: around) ++ rest.occurrences kind around)

/-- What is inside of the elements of a kind, in document order. -/
def inside (kind : Element α → Bool) : Markup α → List (Markup α)
  | nil => []
  | text _ rest => rest.inside kind
  | element e contents rest =>
    (if kind e then [contents] else []) ++ (contents.inside kind ++ rest.inside kind)

/-- The markup without the elements of a kind. -/
def without (kind : Element α → Bool) : Markup α → Markup α
  | nil => nil
  | text content rest => text content (rest.without kind)
  | element e contents rest =>
    if kind e then rest.without kind else element e (contents.without kind) (rest.without kind)

variable (kind : Element α → Bool)

theorem occurrences_append (around : List (Element α)) (m more : Markup α) :
    (m ++ more).occurrences kind around =
      m.occurrences kind around ++ more.occurrences kind around := by
  induction m with
  | nil => rfl
  | text content rest ih => exact ih
  | element e contents rest _ ih =>
    simp only [element_append, occurrences, ih, List.append_assoc]

theorem inside_nil : (nil : Markup α).inside kind = [] := rfl

theorem inside_ofText (content : String) : (ofText content : Markup α).inside kind = [] := rfl

theorem inside_append (m more : Markup α) :
    (m ++ more).inside kind = m.inside kind ++ more.inside kind := by
  induction m with
  | nil => rfl
  | text content rest ih => exact ih
  | element e contents rest _ ih => simp only [element_append, inside, ih, List.append_assoc]

theorem inside_join (parts : List (Markup α)) :
    (join parts).inside kind = parts.flatMap (·.inside kind) := by
  induction parts with
  | nil => rfl
  | cons part parts ih =>
    rw [List.flatMap_cons, ← ih]
    exact inside_append kind part (join parts)

theorem inside_tagged (tag : String) (classes : List String) (contents : Markup α) :
    (tagged tag classes contents).inside kind =
      (if kind ⟨tag, [.classes classes], none⟩ then [contents] else [])
        ++ contents.inside kind := by
  simp [tagged, inside]

theorem inside_clickable (tag : String) (classes : List String) (attributes : List Attribute)
    (onClick : ClickHandler α) (contents : Markup α) :
    (clickable tag classes attributes onClick contents).inside kind =
      (if kind ⟨tag, .classes classes :: attributes, some onClick⟩ then [contents] else [])
        ++ contents.inside kind := by
  simp [clickable, inside]

theorem length_inside (m : Markup α) : (m.inside kind).length = m.count kind := by
  induction m with
  | nil => rfl
  | text content rest ih => exact ih
  | element e contents rest ihc ihr =>
    rw [inside, count, List.length_append, List.length_append, ihc, ihr]
    cases kind e <;> simp [Nat.add_assoc]

theorem without_append (m more : Markup α) :
    (m ++ more).without kind = m.without kind ++ more.without kind := by
  induction m with
  | nil => rfl
  | text content rest ih => exact congrArg (text content) ih
  | element e contents rest _ ih =>
    rw [element_append, without, without, ih]
    split <;> rfl

variable {kind}

theorem occurrences_of_count_eq_zero {m : Markup α} (h : m.count kind = 0)
    (around : List (Element α)) : m.occurrences kind around = [] := by
  induction m generalizing around with
  | nil => rfl
  | text content rest ih => exact ih h around
  | element e contents rest ihc ihr =>
    simp only [count, Nat.add_eq_zero_iff, Bool.toNat_eq_zero] at h
    simp [occurrences, h.1.1, ihc h.1.2, ihr h.2]

theorem without_of_count_eq_zero {m : Markup α} (h : m.count kind = 0) : m.without kind = m := by
  induction m with
  | nil => rfl
  | text content rest ih => exact congrArg (text content) (ih h)
  | element e contents rest ihc ihr =>
    simp only [count, Nat.add_eq_zero_iff, Bool.toNat_eq_zero] at h
    simp [without, h.1.1, ihc h.1.2, ihr h.2]

end Markup

namespace Page

open Markup

/-! ## Texts -/

/-- The texts of a tool call. -/
structure ToolTexts where
  glyph : String
  name : String
  outcome : String
  duration : String

/-- The texts of a subcall by itself, without the subcalls nested in it. -/
structure NodeTexts where
  glyph : String
  name : String
  duration : String
  tokens : String
  cost : String
  error? : Option String
  tools : List ToolTexts
  /-- What is said of children beyond the bound. -/
  depthLimit? : Option String

/-- The row of a tool call on the page says its texts. -/
structure ToolTexts.Shown (texts : ToolTexts) (row : Markup Action) : Prop where
  glyph : row.inside (·.hasClass "rlm-glyph") = [ofText texts.glyph]
  name : row.inside (·.hasClass "rlm-tool-name") = [ofText texts.name]
  metrics : row.inside (·.hasClass "rlm-metric") = [ofText texts.outcome, ofText texts.duration]

/-- The row of a subcall on the page says its texts. -/
structure NodeTexts.ShownInRow (texts : NodeTexts) (row : Markup Action) : Prop where
  glyph : row.inside (·.hasClass "rlm-glyph") = [ofText texts.glyph]
  name : row.inside (·.hasClass "rlm-node-name") = [ofText texts.name]
  metrics : row.inside (·.hasClass "rlm-metric") =
    [ofText texts.duration, ofText texts.tokens, ofText texts.cost]

/-- The element of a subcall says its texts, all of them and no others. -/
structure NodeTexts.Shown (texts : NodeTexts) (own : Markup Action) : Prop where
  row : ∃ row, own.inside (·.hasClass "rlm-node-row") = [row] ∧ texts.ShownInRow row
  error : own.inside (·.hasClass "rlm-node-error") = texts.error?.toList.map ofText
  tools : List.Forall₂ ToolTexts.Shown texts.tools (own.inside (·.hasClass "rlm-tool-row"))
  depthLimit : (own.inside (·.hasClass "rlm-depth-limit")).flatMap (·.inside (·.tag == "span")) =
    texts.depthLimit?.toList.map ofText

/-- The line of the outline that the texts of a tool call make up. -/
def ToolTexts.line (texts : ToolTexts) (id : String) : String :=
  "    - " ++ texts.glyph ++ " " ++ texts.name ++ " [" ++ id ++ "] " ++ texts.outcome ++ " "
    ++ texts.duration

/-- The lines of the outline that the texts of a subcall make up. The page has neither ids nor the
mark. -/
def NodeTexts.lines (texts : NodeTexts) (level : Nat) (mark id : String) (toolIds : List String) :
    List String :=
  let lines := [mark ++ " " ++ texts.glyph ++ " " ++ texts.name ++ " [" ++ id ++ "]  "
      ++ texts.duration ++ "  " ++ texts.tokens ++ "  " ++ texts.cost]
    ++ (texts.error?.map fun error => "    error: " ++ error).toList
    ++ List.zipWith ToolTexts.line texts.tools toolIds
    ++ (texts.depthLimit?.map fun label => "    " ++ label ++ " (load deeper levels)").toList
  lines.map (Outline.indent level ++ ·)

/-! ## Elements of subcalls -/

/-- The number of levels that an element is down. -/
def level (around : List (Element Action)) : Nat :=
  (around.filter (·.hasClass "rlm-children")).length

/-- What is in the element of a subcall by itself, without the subcalls nested in it. -/
def own (node : Occurrence Action) : Markup Action :=
  node.contents.without isNode

/-- The element of a subcall presents a row: it is on the level of the row, has the blocks that the
row calls for, and says by itself what the outline says of the row. -/
structure Presents (node : Occurrence Action) (row : Row) : Prop where
  level : level node.around = row.depth.toNat
  errors : ((own node).inside (·.hasClass "rlm-node-error")).length =
    if row.error.isSome then 1 else 0
  tools : ((own node).inside (·.hasClass "rlm-tool-row")).length = row.tools.length
  toggles : ((own node).inside (·.hasClass "rlm-toggle")).length =
    if 0 < row.childCount ∧ !row.body.isDepthLimited then 1 else 0
  depthLimits : ((own node).inside (·.hasClass "rlm-depth-limit")).length =
    if row.body.isDepthLimited then 1 else 0
  lines : ∃ texts : NodeTexts, texts.Shown (own node) ∧
    Outline.rowLines row = texts.lines (Page.level node.around) (Outline.marker row.body) row.id
      (row.tools.map (·.id))

/-! ## The pieces of an element -/

section Pieces

variable {canLoadDeeper : Bool}

/-- What is in the row of a subcall. -/
def rowContents (row : Row) : Markup Action :=
  toggleMarkup row
  ++ span "rlm-glyph" row.glyph
  ++ span "rlm-node-name" row.name
  ++ span "rlm-metric" row.duration
  ++ span "rlm-metric" (row.tokens ++ " tok")
  ++ span "rlm-metric" row.cost
  ++ toolsToggleMarkup row

theorem inside_span (kind : Element Action → Bool) (className content : String) :
    (span className content).inside kind =
      if kind ⟨"span", [.classes [className]], none⟩ then [ofText content] else [] := by
  simp [span, inside_tagged, inside_ofText]

theorem inside_toggleMarkup (row : Row) {name : String} (h : name ≠ "rlm-toggle-spacer") :
    (toggleMarkup row).inside (·.hasClass name) =
      if name = "rlm-toggle" ∧ 0 < row.childCount ∧ !row.body.isDepthLimited then
        [ofText (Display.toggleGlyph row.childrenExpanded)] else [] := by
  rw [toggleMarkup]
  split
  next hshown => simp [inside_clickable, inside_ofText, hshown]
  next hshown => rw [if_neg fun hname => hshown hname.2]; simp [inside_tagged, inside_nil, h]

theorem inside_toolsToggleMarkup (row : Row) {name : String} (h : name ≠ "rlm-pill") :
    (toolsToggleMarkup row).inside (·.hasClass name) = [] := by
  rw [toolsToggleMarkup]
  split
  next => simp [inside_clickable, inside_ofText, h]
  next => rfl

theorem shownInRow_rowContents (row : Row) {texts : NodeTexts} (hglyph : texts.glyph = row.glyph)
    (hname : texts.name = row.name) (hduration : texts.duration = row.duration)
    (htokens : texts.tokens = row.tokens ++ " tok") (hcost : texts.cost = row.cost) :
    texts.ShownInRow (rowContents row) := by
  constructor <;>
    simp [rowContents, inside_append, inside_toggleMarkup, inside_span, inside_toolsToggleMarkup, *]

theorem inside_mainMarkup (row : Row) {name : String} (hmain : name ≠ "rlm-node-main")
    (hrow : name ∉ ["rlm-toggle-spacer", "rlm-glyph", "rlm-node-name", "rlm-metric", "rlm-pill"]) :
    (mainMarkup row).inside (·.hasClass name) =
      (if name ∈ rowClasses row.outcome then [rowContents row] else []) ++
      (if name = "rlm-toggle" ∧ 0 < row.childCount ∧ !row.body.isDepthLimited then
        [ofText (Display.toggleGlyph row.childrenExpanded)] else []) ++
      (if name = "rlm-node-error" then row.error.toList.map ofText else []) := by
  simp only [List.mem_cons, List.not_mem_nil, or_false, not_or] at hrow
  have hcontents : (rowContents row).inside (·.hasClass name) =
      (toggleMarkup row).inside (·.hasClass name) := by
    simp [rowContents, inside_append, inside_span, inside_toolsToggleMarkup, hrow]
  have herror : (row.error.elim .nil fun error =>
        tagged "div" ["rlm-node-error"] (ofText error)).inside (·.hasClass name) =
      if name = "rlm-node-error" then row.error.toList.map (ofText (α := Action)) else [] := by
    cases row.error <;> simp [inside_tagged, inside_ofText, inside_nil]
  rw [← inside_toggleMarkup row hrow.1, ← hcontents, ← herror]
  simp [mainMarkup, inside_clickable, inside_append, inside_tagged, hmain, rowContents]

/-- What is in the row of a tool call. -/
def toolContents (tool : ToolRow) : Markup Action :=
  span "rlm-glyph" tool.glyph
  ++ span "rlm-tool-name" tool.name
  ++ span "rlm-metric" tool.outcome.name
  ++ span "rlm-metric" tool.duration

theorem shown_toolContents (tool : ToolRow) :
    ToolTexts.Shown ⟨tool.glyph, tool.name, tool.outcome.name, tool.duration⟩
      (toolContents tool) := by
  constructor <;> simp [toolContents, inside_append, inside_span]

theorem inside_toolsMarkup (row : Row) {name : String} (hlist : name ≠ "rlm-tool-list")
    (htool : name ∉ ["rlm-glyph", "rlm-tool-name", "rlm-metric"]) :
    (toolsMarkup row).inside (·.hasClass name) = row.tools.flatMap fun tool =>
      if name ∈ toolClasses tool.outcome then [toolContents tool] else [] := by
  simp only [List.mem_cons, List.not_mem_nil, or_false, not_or] at htool
  have hinside : ∀ tool : ToolRow, (toolMarkup tool).inside (·.hasClass name) =
      if name ∈ toolClasses tool.outcome then [toolContents tool] else [] := by
    intro tool
    simp [toolMarkup, inside_clickable, inside_append, inside_span, htool, toolContents]
  rw [toolsMarkup]
  split
  next hempty => rw [List.isEmpty_iff.1 hempty]; rfl
  next => simp [inside_tagged, inside_join, List.flatMap_map, hlist, hinside]

/-- What is in the block that stands in for children beyond the bound. -/
def depthLimitContents (canLoadDeeper : Bool) (id label : String) : Markup Action :=
  .element ⟨"span", [], none⟩ (ofText label) .nil
  ++ clickable "button" ["rlm-action"] (if canLoadDeeper then [] else [.truth "disabled" true])
    ⟨.loadDeeper id, false⟩ (ofText loadDeeperLabel)

theorem inside_depthLimitContents (id label : String) :
    (depthLimitContents canLoadDeeper id label).inside (·.tag == "span") = [ofText label] := by
  simp [depthLimitContents, inside_append, inside_clickable, inside, ofText]

/-- By itself, what is below the row of a subcall is at most a block in place of children. -/
theorem inside_bodyMarkup (row : Row) {name : String} (hchildren : name ≠ "rlm-children")
    (haction : name ≠ "rlm-action") :
    (bodyMarkup canLoadDeeper row .nil).inside (·.hasClass name) =
      if name = "rlm-depth-limit" then
        row.body.label?.toList.map (depthLimitContents canLoadDeeper row.id)
      else [] := by
  rw [bodyMarkup]
  cases row.body with
  | leaf | collapsed => simp [inside_nil, Body.label?]
  | expanded => simp [inside_tagged, inside_nil, Body.label?, hchildren]
  | depthLimited hidden =>
    cases canLoadDeeper <;>
      simp [depthLimitMarkup, depthLimitContents, inside_append, inside_tagged, inside_clickable,
        inside_ofText, inside, haction, Body.label?]

/-! ## Subcalls nested in each other -/

/-- What is in the element of a subcall. -/
def nodeContents (canLoadDeeper : Bool) (row : Row) (nested : Markup Action) : Markup Action :=
  mainMarkup row ++ toolsMarkup row ++ bodyMarkup canLoadDeeper row nested

/-- Whatever the outcome, the row of a subcall has no class that the elements of other parts
have. -/
theorem not_mem_rowClasses (outcome : Outcome) : ∀ name ∈
    ["rlm-node", "rlm-node-error", "rlm-tool-row", "rlm-toggle", "rlm-depth-limit"],
    name ∉ rowClasses outcome := by
  cases outcome <;> decide

/-- Whatever the outcome, the row of a tool call has no class that the elements of other parts
have. -/
theorem not_mem_toolClasses (outcome : Outcome) : ∀ name ∈
    ["rlm-node", "rlm-node-row", "rlm-node-error", "rlm-toggle", "rlm-depth-limit"],
    name ∉ toolClasses outcome := by
  cases outcome <;> decide

theorem count_mainMarkup (row : Row) : (mainMarkup row).count isNode = 0 := by
  have hinside : (mainMarkup row).inside (·.hasClass "rlm-node") = [] := by
    simp [inside_mainMarkup, not_mem_rowClasses]
  rw [← length_inside]
  exact congrArg List.length hinside

theorem count_toolsMarkup (row : Row) : (toolsMarkup row).count isNode = 0 := by
  have hinside : (toolsMarkup row).inside (·.hasClass "rlm-node") = [] := by
    simp [inside_toolsMarkup, not_mem_toolClasses]
  rw [← length_inside]
  exact congrArg List.length hinside

/-- By itself, the element of a subcall has its rows and what stands in for its children. -/
theorem without_nodeContents (row : Row) {nested : Markup Action}
    (h : nested.without isNode = .nil) :
    (nodeContents canLoadDeeper row nested).without isNode =
      nodeContents canLoadDeeper row .nil := by
  have hbody : (bodyMarkup canLoadDeeper row nested).without isNode =
      bodyMarkup canLoadDeeper row .nil := by
    rw [bodyMarkup, bodyMarkup]
    cases row.body with
    | leaf | collapsed => rfl
    | expanded => simp [tagged, without, h, isNode]
    | depthLimited hidden => cases canLoadDeeper <;> rfl
  rw [nodeContents, without_append, without_append, without_of_count_eq_zero (count_mainMarkup row),
    without_of_count_eq_zero (count_toolsMarkup row), hbody, nodeContents]

/-- What the parts of the element of a subcall say by themselves. -/
theorem inside_nodeContents (canLoadDeeper : Bool) (row : Row) :
    let own := nodeContents canLoadDeeper row .nil
    own.inside (·.hasClass "rlm-node-row") = [rowContents row] ∧
      own.inside (·.hasClass "rlm-node-error") = row.error.toList.map ofText ∧
      own.inside (·.hasClass "rlm-tool-row") = row.tools.map toolContents ∧
      own.inside (·.hasClass "rlm-toggle") =
        (if 0 < row.childCount ∧ !row.body.isDepthLimited then
          [ofText (Display.toggleGlyph row.childrenExpanded)] else []) ∧
      own.inside (·.hasClass "rlm-depth-limit") =
        row.body.label?.toList.map (depthLimitContents canLoadDeeper row.id) := by
  have hrow : "rlm-node-row" ∈ rowClasses row.outcome := List.mem_cons_self
  have htool : ∀ tool : ToolRow, "rlm-tool-row" ∈ toolClasses tool.outcome :=
    fun _ => List.mem_cons_self
  refine ⟨?_, ?_, ?_, ?_, ?_⟩ <;>
    simp [nodeContents, inside_append, inside_mainMarkup, inside_toolsMarkup, inside_bodyMarkup,
      not_mem_rowClasses, not_mem_toolClasses, hrow, htool, List.map_eq_flatMap]

/-- The texts of a row. -/
def textsOf (row : Row) : NodeTexts where
  glyph := row.glyph
  name := row.name
  duration := row.duration
  tokens := row.tokens ++ " tok"
  cost := row.cost
  error? := row.error
  tools := row.tools.map fun tool =>
    ⟨tool.glyph, tool.name, tool.outcome.name, tool.duration⟩
  depthLimit? := row.body.label?

theorem shown_textsOf (row : Row) :
    (textsOf row).Shown (nodeContents canLoadDeeper row .nil) := by
  obtain ⟨hrow, herror, htools, -, hlimit⟩ := inside_nodeContents canLoadDeeper row
  constructor
  · exact ⟨rowContents row, hrow, shownInRow_rowContents row rfl rfl rfl rfl rfl⟩
  · exact herror
  · rw [htools, textsOf, List.forall₂_map_left_iff, List.forall₂_map_right_iff, List.forall₂_same]
    exact fun tool _ => shown_toolContents tool
  · rw [hlimit, textsOf]
    cases row.body.label? <;> simp [inside_depthLimitContents]

/-- The outline says of a row what its texts are. -/
theorem rowLines_eq (row : Row) :
    Outline.rowLines row = (textsOf row).lines row.depth.toNat (Outline.marker row.body) row.id
      (row.tools.map (·.id)) := by
  have htools : List.zipWith ToolTexts.line (textsOf row).tools (row.tools.map (·.id)) =
      row.tools.map Outline.toolLine := by
    rw [textsOf, List.zipWith_map, List.zipWith_self]
    rfl
  rw [Outline.rowLines, NodeTexts.lines, htools]
  simp [Outline.callLine, textsOf, String.append_assoc]

/-- The element of a subcall presents its row, whatever is nested in it. -/
theorem presents_nodeContents {row : Row} {nested : Markup Action} {around : List (Element Action)}
    (hnested : nested.without isNode = .nil) (hlevel : level around = row.depth.toNat) :
    Presents ⟨nodeContents canLoadDeeper row nested, around⟩ row := by
  have hown : own ⟨nodeContents canLoadDeeper row nested, around⟩ =
      nodeContents canLoadDeeper row .nil := without_nodeContents row hnested
  obtain ⟨-, herror, htools, htoggle, hlimit⟩ := inside_nodeContents canLoadDeeper row
  refine ⟨hlevel, ?_, ?_, ?_, ?_, textsOf row, ?_, ?_⟩
  · rw [hown, herror]
    cases row.error <;> rfl
  · rw [hown, htools, List.length_map]
  · rw [hown, htoggle]
    split <;> rfl
  · rw [hown, hlimit]
    cases row.body <;> rfl
  · rw [hown]
    exact shown_textsOf row
  · rw [rowLines_eq, hlevel]

/-- The element of a subcall. -/
def nodeElement : Element Action := ⟨"div", [.classes ["rlm-node"]], none⟩

/-- The element around the subcalls that are nested in another one. -/
def childrenElement : Element Action := ⟨"div", [.classes ["rlm-children"]], none⟩

/-- In the element of a subcall, the elements of subcalls are those nested in it. -/
theorem occurrences_nodeContents (row : Row) (nested : Markup Action)
    (around : List (Element Action)) :
    (nodeContents canLoadDeeper row nested).occurrences isNode around =
      if row.body.isExpanded then nested.occurrences isNode (childrenElement :: around)
      else [] := by
  have hbody : (bodyMarkup canLoadDeeper row nested).occurrences isNode around =
      if row.body.isExpanded then nested.occurrences isNode (childrenElement :: around)
      else [] := by
    rw [bodyMarkup]
    cases row.body with
    | leaf | collapsed => rfl
    | expanded => simp [tagged, occurrences, isNode, Body.isExpanded, childrenElement]
    | depthLimited hidden => cases canLoadDeeper <;> rfl
  rw [nodeContents, occurrences_append, occurrences_append,
    occurrences_of_count_eq_zero (count_mainMarkup row),
    occurrences_of_count_eq_zero (count_toolsMarkup row), hbody]
  rfl

theorem nodesMarkup_cons (row : Row) (nested rest : Forest Row) :
    nodesMarkup canLoadDeeper (.cons row nested rest) =
      .element nodeElement (nodeContents canLoadDeeper row (nodesMarkup canLoadDeeper nested))
        (nodesMarkup canLoadDeeper rest) := rfl

theorem isNode_nodeElement : isNode nodeElement = true := by
  decide

theorem occurrences_nodesMarkup_cons (row : Row) (nested rest : Forest Row)
    (around : List (Element Action)) :
    (nodesMarkup canLoadDeeper (.cons row nested rest)).occurrences isNode around =
      ⟨nodeContents canLoadDeeper row (nodesMarkup canLoadDeeper nested), around⟩ ::
        ((if row.body.isExpanded then (nodesMarkup canLoadDeeper nested).occurrences isNode
            (childrenElement :: nodeElement :: around) else [])
          ++ (nodesMarkup canLoadDeeper rest).occurrences isNode around) := by
  rw [nodesMarkup_cons, occurrences, isNode_nodeElement, occurrences_nodeContents]
  rfl

/-- Apart from the subcalls there is nothing in a run of subcalls. -/
theorem without_nodesMarkup (rows : Forest Row) :
    (nodesMarkup canLoadDeeper rows).without isNode = .nil := by
  induction rows with
  | nil => rfl
  | cons row nested rest _ ih => rw [nodesMarkup_cons, without, isNode_nodeElement, if_pos rfl, ih]

/-- The elements of a rendered forest, wherever it is on the page, present its rows one by one. -/
theorem presents_nodesMarkup (state : Expansion) (bound depth : UInt32) (forest : Forest Call)
    {around : List (Element Action)} (hlevel : level around = depth.toNat) :
    let rows := renderForest state bound depth forest
    List.Forall₂ Presents ((nodesMarkup canLoadDeeper rows).occurrences isNode around)
      rows.toList := by
  intro rows
  induction forest generalizing depth around with
  | nil => exact .nil
  | cons call children rest ihchildren ihrest =>
    unfold rows renderForest
    rw [occurrences_nodesMarkup_cons, Forest.toList]
    refine .cons (presents_nodeContents (without_nodesMarkup _) hlevel)
      (List.rel_append ?_ (ihrest depth hlevel))
    cases hexpanded : (Subcall.row state bound depth ⟨call, children⟩).body.isExpanded with
    | false => exact .nil
    | true =>
      -- What is expanded is above the last level, so the next level is one further down.
      refine ihchildren (depth + 1) ?_
      rw [toNat_add_one_of_lt (lt_of_isExpanded hexpanded), ← hlevel]
      rfl

theorem count_summaryMarkup (summary : Summary) (hasNodes : Bool) :
    (summaryMarkup summary hasNodes).count isNode = 0 := by
  have hinside : (summaryMarkup summary hasNodes).inside (·.hasClass "rlm-node") = [] := by
    unfold summaryMarkup
    cases hasNodes <;>
      simp [inside_append, inside_tagged, inside_clickable, inside_join, inside_span, inside_ofText,
        inside_nil]
  rw [← length_inside]
  exact congrArg List.length hinside

/-- The elements of subcalls on a page are those in its tree. -/
theorem occurrences_markup (summary : Summary) (roots : Forest Row) :
    (Page.markup canLoadDeeper (.tree summary roots)).occurrences isNode [] =
      (nodesMarkup canLoadDeeper roots).occurrences isNode
        [⟨"div", [.classes ["rlm-tree"]], none⟩, ⟨"div", [.classes ["rlm-trajectory"]], none⟩] := by
  have hsummary := occurrences_of_count_eq_zero (count_summaryMarkup summary true)
  simp [Page.markup, viewMarkup, tagged, occurrences, occurrences_append, isNode, ofText, hsummary]

end Pieces

/-- The page and the outline of a trajectory that has subcalls present the same rows. The elements
of subcalls on the page are, in document order, those of the rows from top to bottom; each of them
is on the level of its row, has an error, tool calls, a control for its children and a block in
place of children as the row has, and says what the lines of the outline for this row say. Apart
from the line of the summary, these are all lines of the outline. -/
theorem presents_markup {trajectory : Trajectory} (hsubcalls : trajectory.isEmpty = false)
    (state : Expansion) (bound : UInt32) (handlers : Handlers) :
    let view := View.render trajectory state bound false
    let page := Page.markup handlers.loadDeeper view
    List.Forall₂ Presents (page.occurrences isNode []) view.visibleRows ∧
      Outline.text view = String.join ((Outline.summaryLine trajectory.summary ::
        view.visibleRows.flatMap Outline.rowLines).map (· ++ "\n")) := by
  intro view page
  have hview : view =
      .tree trajectory.summary (renderForest state bound 0 trajectory.subcalls) := by
    simp [view, View.render, hsubcalls]
  constructor
  · unfold page
    rw [hview, occurrences_markup]
    exact presents_nodesMarkup state bound 0 trajectory.subcalls (by decide)
  · rw [Outline.text, Outline.lines_render hsubcalls]

/-- With the children of `root` and the tool call of `locate` displayed, and the children of
`recurse-1` beyond the bound. -/
theorem presents_markup_demo :
    let state := (Expansion.collapsed.expandAll ["root"]).toggleTools ⟨DemoTrajectory.locate, .nil⟩
    let view := View.render demoTrajectory state 2 false
    let page := Page.markup Handlers.all.loadDeeper view
    demoTrajectory.isEmpty = false ∧
      List.Forall₂ Presents (page.occurrences isNode []) view.visibleRows ∧
      (page.occurrences isNode []).map (fun node => level node.around) = [0, 1, 1, 1, 0] ∧
      Outline.text view = String.join ([
        "run run-7f3a | 16 subcalls | depth 12 | 28,710 tokens | $0.44 | 5m 1s",
        "▾ ✓ rlm.run: audit dependency graph [root]  5m 0s  6,800 tok  $0.12",
        "    ✓ rlm.summarize chunk [summarize]  2s  1,920 tok  $0.02",
        "    ✗ rlm.locate symbol [locate]  950ms  640 tok  $0.01",
        "      error: context window exceeded while scanning shard 7",
        "      - ✗ grep [locate-grep] failure 310ms",
        "  … ✓ rlm.subquery level 1 [recurse-1]  4s  1,250 tok  $0.01",
        "      1 more nested subcall (load deeper levels)",
        "  ✓ rlm.answer [followup]  1s  1,050 tok  $0.01"].map (· ++ "\n")) := by
  intro state view page
  have hsubcalls : demoTrajectory.isEmpty = false := rfl
  obtain ⟨hpresents, htext⟩ := presents_markup hsubcalls state 2 .all
  exact ⟨hsubcalls, hpresents, by decide +kernel, htext.trans (by decide +kernel)⟩

end Page

end RunTrace
