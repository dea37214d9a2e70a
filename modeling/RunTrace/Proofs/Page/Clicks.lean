import RunTrace.Proofs.Page.Sites
import RunTrace.Viewer.Basic
import RunTrace.Viewer.DemoTrajectory

/-!
# Clicks on the page

A click on an element of the page is offered to the element and to those around it. Some controls
keep it and some do not, and the subcalls on the page are inside of each other. What a click does in
the end depends on little of all this: on the controls around the element, and on the subcall that
the innermost of the elements around it stands for.

## Main results

* `Page.Meant.followsRules`: the few standings that clicks have on a page follow the rules;
* `Page.works_nodesMarkup`: in the subcalls of a rendered forest, at any depth, clicks do what they
  are meant to;
* `Page.clicks_markup`: clicks anywhere on the page of a view dispatch at most one action, and it is
  for the subcall or tool call that is clicked; the controls that are there are those of its rows.
-/

namespace RunTrace

/-- Something that has an element of its own on the page. -/
inductive Part where
  | row (row : Row)
  | tool (tool : ToolRow)
  deriving DecidableEq

namespace Part

/-- The row of a subcall, if the part is one. -/
def row? : Part → Option Row
  | row r => some r
  | tool _ => none

/-- The row of a tool call, if the part is one. -/
def tool? : Part → Option ToolRow
  | row _ => none
  | tool t => some t

end Part

/-- The row of a subcall, followed by those of its tool calls that are displayed. -/
def Row.parts (row : Row) : List Part :=
  .row row :: row.tools.map .tool

/-- The parts of a view from top to bottom. -/
def View.parts (view : View) : List Part :=
  view.visibleRows.flatMap Row.parts

namespace Page

open Markup

/-! ## Where a click lands -/

/-- Whether an element is that of a subcall. -/
def isNode (element : Element Action) : Bool :=
  element.hasClass "rlm-node"

/-- Whether an element is the row of a tool call. -/
def isToolRow (element : Element Action) : Bool :=
  element.hasClass "rlm-tool-row"

/-- Whether an element stands for a part of the view. -/
def isPart (element : Element Action) : Bool :=
  isNode element || isToolRow element

/-- An element of a page, labelled with the part that it stands for. -/
abbrev PageSite := Site Action Part

/-- Something on a page that can be clicked. -/
inductive Control where
  | toolRow
  | childrenToggle
  | toolsButton
  | main
  | loadDeeper
  | expandAll
  | collapseAll
  deriving DecidableEq

/-- The control that an element is, if it is one. -/
def control? (site : PageSite) : Option Control :=
  let element := site.element
  if isToolRow element then some .toolRow
  else if element.hasClass "rlm-toggle" then some .childrenToggle
  else if element.tag = "button" ∧ element.hasClass "rlm-pill" then some .toolsButton
  else if element.hasClass "rlm-node-main" then some .main
  else if element.hasClass "rlm-action" then
    -- What these buttons are for can only be told from their texts.
    if site.contents = ofText loadDeeperLabel then some .loadDeeper
    else if site.contents = ofText "Expand all" then some .expandAll
    else if site.contents = ofText "Collapse all" then some .collapseAll
    else none
  else none

/-- The controls that a click is inside of, from the inside out. -/
def controls (click : List PageSite) : List Control :=
  click.filterMap control?

/-- The row of the innermost subcall that a click is inside of. -/
def row? (click : List PageSite) : Option Row :=
  (click.find? fun site => isNode site.element).bind fun site => site.label?.bind Part.row?

/-- The innermost row of a tool call that a click is inside of. -/
def tool? (click : List PageSite) : Option ToolRow :=
  (click.find? fun site => isToolRow site.element).bind fun site => site.label?.bind Part.tool?

/-- Whether an element is disabled, in which case it does not receive clicks. -/
def isDisabled (element : Element Action) : Bool :=
  element.attributes.contains (.truth "disabled" true)

/-- The actions that a click dispatches. -/
def dispatched (click : List PageSite) : List Action :=
  clickActions ((click.map (·.element)).filter fun element => !isDisabled element)

/-- All that the rules for a click speak of. -/
structure Standing where
  controls : List Control
  row? : Option Row
  tool? : Option ToolRow
  dispatched : List Action

/-- The standing of a click. -/
def standing (click : List PageSite) : Standing :=
  ⟨controls click, row? click, tool? click, dispatched click⟩

/-- The rules for what a click does. Subcalls are always those of the innermost element around. -/
structure FollowsRules (canLoadDeeper : Bool) (click : Standing) : Prop where
  length_le_one : click.dispatched.length ≤ 1
  toolRow : .toolRow ∈ click.controls →
    ∃ row tool, click.row? = some row ∧ click.tool? = some tool ∧ tool ∈ row.tools ∧
      click.dispatched = [.activateToolCall tool.id]
  childrenToggle : .childrenToggle ∈ click.controls →
    ∃ row, click.row? = some row ∧ click.dispatched = [.toggleChildren row.id]
  toolsButton : .toolsButton ∈ click.controls →
    ∃ row, click.row? = some row ∧ click.dispatched = [.toggleTools row.id]
  /-- Apart from the two controls in it, the row of a subcall is a control itself. -/
  main : .main ∈ click.controls → .childrenToggle ∉ click.controls →
    .toolsButton ∉ click.controls →
    ∃ row, click.row? = some row ∧ click.dispatched = [.activateSubcall row.id]
  /-- The button is disabled if there is nobody to load deeper levels. -/
  loadDeeper : .loadDeeper ∈ click.controls →
    ∃ row, click.row? = some row ∧
      click.dispatched = if canLoadDeeper then [.loadDeeper row.id] else []
  expandAll : .expandAll ∈ click.controls → click.dispatched = [.expandAll]
  collapseAll : .collapseAll ∈ click.controls → click.dispatched = [.collapseAll]
  elsewhere : click.controls = [] → click.dispatched = []

/-! ## Standings

A click inside of one more element has a standing that can be told from the one outside. There are
but a few standings on a page, and none of them says anything of what is further out.
-/

namespace Standing

/-- Inside of a subcall, or of none, where nothing can be clicked. -/
def idle (row? : Option Row) : Standing :=
  ⟨[], row?, none, []⟩

/-- In the row of a subcall. -/
def main (row : Row) : Standing :=
  ⟨[.main], some row, none, [.activateSubcall row.id]⟩

/-- On the control for the children of a subcall. -/
def childrenToggle (row : Row) : Standing :=
  ⟨[.childrenToggle, .main], some row, none, [.toggleChildren row.id]⟩

/-- On the control for the tool calls of a subcall. -/
def toolsButton (row : Row) : Standing :=
  ⟨[.toolsButton, .main], some row, none, [.toggleTools row.id]⟩

/-- In the row of a tool call. -/
def toolRow (row : Row) (tool : ToolRow) : Standing :=
  ⟨[.toolRow], some row, some tool, [.activateToolCall tool.id]⟩

/-- On the control for more levels below a subcall. -/
def loadDeeper (canLoadDeeper : Bool) (row : Row) : Standing :=
  ⟨[.loadDeeper], some row, none, if canLoadDeeper then [.loadDeeper row.id] else []⟩

/-- On the control that expands all. -/
def expandAll : Standing :=
  ⟨[.expandAll], none, none, [.expandAll]⟩

/-- On the control that collapses all. -/
def collapseAll : Standing :=
  ⟨[.collapseAll], none, none, [.collapseAll]⟩

/-- The standing inside of one more element. -/
def enter (around : Standing) (site : PageSite) : Standing where
  controls := (control? site).toList ++ around.controls
  row? := if isNode site.element then site.label?.bind Part.row? else around.row?
  tool? := if isToolRow site.element then site.label?.bind Part.tool? else around.tool?
  dispatched :=
    if isDisabled site.element then around.dispatched
    else match site.element.onClick with
      | none => around.dispatched
      | some handler => handler.action :: if handler.stops then [] else around.dispatched

end Standing

/-- The standing of a click on a control itself. -/
def target? (click : List PageSite) : Option Standing :=
  (click.head?.bind control?).map fun _ => standing click

/-- What can be clicked of a row and its tool calls, from top to bottom. -/
def rowTargets (canLoadDeeper : Bool) (row : Row) : List Standing :=
  .main row
    :: (if 0 < row.childCount ∧ !row.body.isDepthLimited then [.childrenToggle row] else [])
    ++ (if 0 < row.toolCount then [.toolsButton row] else [])
    ++ row.tools.map (.toolRow row)
    ++ if row.body.isDepthLimited then [.loadDeeper canLoadDeeper row] else []

/-- What can be clicked on the page of a view, from top to bottom. -/
def viewTargets (canLoadDeeper : Bool) : View → List Standing
  | .tree _ roots => .expandAll :: .collapseAll :: roots.toList.flatMap (rowTargets canLoadDeeper)
  | _ => []

theorem standing_nil : standing [] = .idle none := rfl

/-- What is around an element matters by its standing alone. -/
theorem standing_cons (site : PageSite) (outer : List PageSite) :
    standing (site :: outer) = (standing outer).enter site := by
  have hcontrols : controls (site :: outer) = (control? site).toList ++ controls outer := by
    rw [controls, List.filterMap_cons]
    cases control? site <;> rfl
  have hrow : row? (site :: outer) =
      if isNode site.element then site.label?.bind Part.row? else row? outer := by
    rw [row?, List.find?_cons]
    cases isNode site.element <;> rfl
  have htool : tool? (site :: outer) =
      if isToolRow site.element then site.label?.bind Part.tool? else tool? outer := by
    rw [tool?, List.find?_cons]
    cases isToolRow site.element <;> rfl
  have hdispatched : dispatched (site :: outer) =
      ((standing outer).enter site).dispatched := by
    rw [dispatched, List.map_cons, List.filter_cons, Standing.enter]
    cases isDisabled site.element with
    | true => rfl
    | false =>
      simp only [Bool.not_false, if_true, clickActions]
      cases site.element.onClick <;> rfl
  rw [standing, hcontrols, hrow, htool, hdispatched]
  rfl

/-- The standings that clicks on a page have. -/
inductive Meant (canLoadDeeper : Bool) : Standing → Prop
  | idle (row? : Option Row) : Meant canLoadDeeper (.idle row?)
  | main (row : Row) : Meant canLoadDeeper (.main row)
  | childrenToggle (row : Row) : Meant canLoadDeeper (.childrenToggle row)
  | toolsButton (row : Row) : Meant canLoadDeeper (.toolsButton row)
  | toolRow {row : Row} {tool : ToolRow} (mem : tool ∈ row.tools) :
    Meant canLoadDeeper (.toolRow row tool)
  | loadDeeper (row : Row) : Meant canLoadDeeper (.loadDeeper canLoadDeeper row)
  | expandAll : Meant canLoadDeeper .expandAll
  | collapseAll : Meant canLoadDeeper .collapseAll

/-- Clicks with such a standing follow the rules. -/
theorem Meant.followsRules {canLoadDeeper : Bool} {click : Standing}
    (meant : Meant canLoadDeeper click) : FollowsRules canLoadDeeper click := by
  cases meant with
  | toolRow mem => constructor <;> simp [Standing.toolRow, mem]
  | loadDeeper row => cases canLoadDeeper <;> constructor <;> simp [Standing.loadDeeper]
  | idle row? => constructor <;> simp [Standing.idle]
  | main row => constructor <;> simp [Standing.main]
  | childrenToggle row => constructor <;> simp [Standing.childrenToggle]
  | toolsButton row => constructor <;> simp [Standing.toolsButton]
  | expandAll => constructor <;> simp [Standing.expandAll]
  | collapseAll => constructor <;> simp [Standing.collapseAll]

/-! ## Clicks in markup -/

/-- Wherever clicks do what they are meant to, those in the markup do too; the markup has an element
for each of the parts, and the targets are what can be clicked. -/
structure Works (canLoadDeeper : Bool) (around : Standing) (m : Markup Action) (parts : List Part)
    (targets : List Standing) : Prop where
  count : m.count isPart = parts.length
  meant : Meant canLoadDeeper around → ∀ outer, standing outer = around → ∀ more,
    ∀ click ∈ m.sites isPart outer (parts ++ more), Meant canLoadDeeper (standing click)
  targets : ∀ outer, standing outer = around → ∀ more,
    (m.sites isPart outer (parts ++ more)).filterMap target? = targets

namespace Works

variable {canLoadDeeper : Bool} {around : Standing} {m more : Markup Action}
  {parts moreParts : List Part} {targets moreTargets : List Standing}

theorem nil : Works canLoadDeeper around .nil [] [] where
  count := rfl
  meant := by simp [sites]
  targets _ _ _ := rfl

theorem ofText (content : String) : Works canLoadDeeper around (ofText content) [] [] where
  count := rfl
  meant := by simp [sites, Markup.ofText]
  targets _ _ _ := rfl

theorem append (first : Works canLoadDeeper around m parts targets)
    (second : Works canLoadDeeper around more moreParts moreTargets) :
    Works canLoadDeeper around (m ++ more) (parts ++ moreParts) (targets ++ moreTargets) := by
  have hsites : ∀ outer left, (m ++ more).sites isPart outer (parts ++ moreParts ++ left) =
      m.sites isPart outer (parts ++ (moreParts ++ left)) ++
        more.sites isPart outer (moreParts ++ left) := by
    intro outer left
    rw [sites_append, first.count, List.append_assoc, List.drop_left]
  refine ⟨?_, fun here outer houter left click hclick => ?_, fun outer houter left => ?_⟩
  · rw [count_append, first.count, second.count, List.length_append]
  · rw [hsites, List.mem_append] at hclick
    rcases hclick with hclick | hclick
    · exact first.meant here outer houter _ click hclick
    · exact second.meant here outer houter left click hclick
  · rw [hsites, List.filterMap_append, first.targets outer houter, second.targets outer houter]

/-- Where there is nothing to click, what follows has it all. -/
theorem before (first : Works canLoadDeeper around m [] [])
    (second : Works canLoadDeeper around more parts targets) :
    Works canLoadDeeper around (m ++ more) parts targets :=
  first.append second

theorem behind (first : Works canLoadDeeper around m parts targets)
    (second : Works canLoadDeeper around more [] []) :
    Works canLoadDeeper around (m ++ more) parts targets := by
  have happend := first.append second
  rwa [List.append_nil, List.append_nil] at happend

theorem join {α : Type} {items : List α} {markup : α → Markup Action} {partsOf : α → List Part}
    {targetsOf : α → List Standing}
    (works : ∀ item ∈ items,
      Works canLoadDeeper around (markup item) (partsOf item) (targetsOf item)) :
    Works canLoadDeeper around (Markup.join (items.map markup)) (items.flatMap partsOf)
      (items.flatMap targetsOf) := by
  induction items with
  | nil => exact nil
  | cons item items ih =>
    rw [List.forall_mem_cons] at works
    rw [List.flatMap_cons, List.flatMap_cons]
    exact works.1.append (ih works.2)

theorem join_of_nothing {all : List (Markup Action)}
    (works : ∀ m ∈ all, Works canLoadDeeper around m [] []) :
    Works canLoadDeeper around (Markup.join all) [] [] := by
  have hjoin : Works canLoadDeeper around (Markup.join (all.map id)) (all.flatMap fun _ => [])
      (all.flatMap fun _ => []) := join works
  rwa [List.map_id, List.flatMap_eq_nil_iff.2 fun _ _ => rfl,
    List.flatMap_eq_nil_iff.2 fun _ _ => rfl] at hjoin

/-- An element takes clicks to another standing, or leaves them where they are. -/
theorem element {e : Element Action} (inside : Standing) (label? : Option Part)
    (labelled : isPart e = label?.isSome)
    (entered : around.enter ⟨e, m, label?⟩ = inside)
    (meant : Meant canLoadDeeper around → Meant canLoadDeeper inside)
    (works : Works canLoadDeeper inside m parts targets) :
    Works canLoadDeeper around (.element e m .nil) (label?.toList ++ parts)
      (((control? ⟨e, m, label?⟩).map fun _ => inside).toList ++ targets) := by
  have hsites : ∀ outer left,
      (Markup.element e m .nil).sites isPart outer (label?.toList ++ parts ++ left) =
        (⟨e, m, label?⟩ :: outer) :: m.sites isPart (⟨e, m, label?⟩ :: outer) (parts ++ left) := by
    intro outer left
    simp only [sites, labelled]
    cases label? <;> simp
  have hinside : ∀ outer, standing outer = around →
      standing (⟨e, m, label?⟩ :: outer) = inside := by
    intro outer houter
    rw [standing_cons, houter, entered]
  refine ⟨?_, fun here outer houter left click hclick => ?_, fun outer houter left => ?_⟩
  · rw [Markup.count, labelled, works.count, List.length_append]
    cases label? <;> rfl
  · rw [hsites, List.mem_cons] at hclick
    rcases hclick with rfl | hclick
    · rw [hinside outer houter]
      exact meant here
    · exact works.meant (meant here) _ (hinside outer houter) left click hclick
  · rw [hsites, List.filterMap_cons, works.targets _ (hinside outer houter), target?,
      List.head?_cons, Option.bind_some, hinside outer houter]
    cases control? ⟨e, m, label?⟩ <;> rfl

end Works

/-! ## The pieces of the page

The tag, the classes and the handler of an element are written out, so whatever its texts and ids
are, the standing inside of it can be computed.
-/

/-- Whether an element is none that the rules speak of. -/
def isPlain (element : Element Action) : Bool :=
  element.onClick.isNone && element.tag != "button" && !isPart element
    && ["rlm-toggle", "rlm-node-main", "rlm-action"].all fun name => !element.hasClass name

section Pieces

variable {canLoadDeeper : Bool} {around : Standing}

theorem control?_of_isPlain {site : PageSite} (hplain : isPlain site.element = true) :
    control? site = none := by
  simp only [isPlain, isPart, Bool.and_eq_true, Bool.not_eq_true', Bool.or_eq_false_iff, bne_iff_ne,
    List.all_cons, List.all_nil] at hplain
  obtain ⟨⟨⟨-, htag⟩, -, htool⟩, htoggle, hmain, haction, -⟩ := hplain
  simp [control?, htool, htoggle, htag, hmain, haction]

theorem enter_of_isPlain {site : PageSite} (hplain : isPlain site.element = true) :
    around.enter site = around := by
  have hcontrol := control?_of_isPlain hplain
  simp only [isPlain, isPart, Bool.and_eq_true, Bool.not_eq_true', Bool.or_eq_false_iff,
    Option.isNone_iff_eq_none] at hplain
  obtain ⟨⟨⟨hclick, -⟩, hnode, htool⟩, -⟩ := hplain
  simp [Standing.enter, hcontrol, hnode, htool, hclick]

/-- Such an element leaves clicks where they are. -/
theorem Works.plain {e : Element Action} {m : Markup Action} {parts : List Part}
    {targets : List Standing} (hplain : isPlain e = true)
    (works : Works canLoadDeeper around m parts targets) :
    Works canLoadDeeper around (.element e m .nil) parts targets := by
  have hpart : isPart e = false := by
    simp only [isPlain, Bool.and_eq_true, Bool.not_eq_true'] at hplain
    exact hplain.1.2
  have helement := Works.element around none hpart (enter_of_isPlain hplain) id works
  rwa [control?_of_isPlain hplain] at helement

theorem works_span {className : String} (content : String)
    (hplain : isPlain ⟨"span", [.classes [className]], none⟩ = true) :
    Works canLoadDeeper around (span className content) [] [] :=
  .plain hplain (.ofText content)

theorem works_summaryMarkup (summary : Summary) (hasNodes : Bool) :
    Works canLoadDeeper (.idle none) (summaryMarkup summary hasNodes) []
      (if hasNodes then [.expandAll, .collapseAll] else []) := by
  refine .plain rfl (.before (.plain rfl ?_) ?_)
  · refine .join_of_nothing fun m hm => ?_
    obtain ⟨metric, -, rfl⟩ := List.mem_map.1 hm
    exact works_span metric rfl
  · cases hasNodes with
    | false => exact .nil
    | true =>
      have hexpand : Works canLoadDeeper (.idle none)
          (clickable "button" ["rlm-action"] [] ⟨.expandAll, false⟩ (Markup.ofText "Expand all"))
          [] [.expandAll] :=
        .element .expandAll none rfl rfl (fun _ => .expandAll) (.ofText _)
      have hcollapse : Works canLoadDeeper (.idle none)
          (clickable "button" ["rlm-action"] [] ⟨.collapseAll, false⟩
            (Markup.ofText "Collapse all")) [] [.collapseAll] :=
        .element .collapseAll none rfl rfl (fun _ => .collapseAll) (.ofText _)
      exact .plain rfl (hexpand.append hcollapse)

/-- The control for the children of a subcall keeps clicks for itself. -/
theorem works_toggleMarkup (row : Row) :
    Works canLoadDeeper (.main row) (toggleMarkup row) []
      (if 0 < row.childCount ∧ !row.body.isDepthLimited then [.childrenToggle row] else []) := by
  by_cases h : 0 < row.childCount ∧ !row.body.isDepthLimited
  · rw [toggleMarkup, if_pos h, if_pos h]
    exact .element (.childrenToggle row) none rfl rfl (fun _ => .childrenToggle row) (.ofText _)
  · rw [toggleMarkup, if_neg h, if_neg h]
    exact .plain rfl .nil

/-- The control for the tool calls of a subcall keeps clicks for itself. -/
theorem works_toolsToggleMarkup (row : Row) :
    Works canLoadDeeper (.main row) (toolsToggleMarkup row) []
      (if 0 < row.toolCount then [.toolsButton row] else []) := by
  by_cases h : 0 < row.toolCount
  · rw [toolsToggleMarkup, if_pos h, if_pos h]
    exact .element (.toolsButton row) none rfl rfl (fun _ => .toolsButton row) (.ofText _)
  · rw [toolsToggleMarkup, if_neg h, if_neg h]
    exact .nil

theorem isPlain_rowClasses (outcome : Outcome) :
    isPlain ⟨"div", [.classes (rowClasses outcome)], none⟩ = true := by
  cases outcome <;> rfl

/-- In the row of a subcall, clicks that none of its controls keeps activate the subcall. -/
theorem works_mainMarkup (row : Row) :
    Works canLoadDeeper (.idle (some row)) (mainMarkup row) []
      (.main row
        :: (if 0 < row.childCount ∧ !row.body.isDepthLimited then [.childrenToggle row] else [])
        ++ if 0 < row.toolCount then [.toolsButton row] else []) := by
  have hmetric : ∀ content,
      Works canLoadDeeper (.main row) (span "rlm-metric" content) [] [] :=
    fun content => works_span content rfl
  have hnamed : Works canLoadDeeper (.main row)
      (toggleMarkup row ++ span "rlm-glyph" row.glyph ++ span "rlm-node-name" row.name) []
      (if 0 < row.childCount ∧ !row.body.isDepthLimited then [.childrenToggle row] else []) :=
    .behind (.behind (works_toggleMarkup row) (works_span _ rfl)) (works_span _ rfl)
  have hmetrics := ((hnamed.behind (hmetric row.duration)).behind
    (hmetric (row.tokens ++ " tok"))).behind (hmetric row.cost)
  have hcontents := hmetrics.append (works_toolsToggleMarkup row)
  refine .element (.main row) none rfl rfl (fun _ => .main row) (.behind ?_ ?_)
  · exact .plain (isPlain_rowClasses row.outcome) hcontents
  · cases row.error with
    | none => exact .nil
    | some error => exact .plain rfl (.ofText error)

/-- The row of a tool call keeps clicks for the call. -/
theorem works_toolMarkup {row : Row} {tool : ToolRow} (mem : tool ∈ row.tools) :
    Works canLoadDeeper (.idle (some row)) (toolMarkup tool) [.tool tool] [.toolRow row tool] := by
  have hcontents : Works canLoadDeeper (.toolRow row tool)
      (span "rlm-glyph" tool.glyph ++ span "rlm-tool-name" tool.name
        ++ span "rlm-metric" tool.outcome.name ++ span "rlm-metric" tool.duration) [] [] :=
    .before (.before (.before (works_span _ rfl) (works_span _ rfl)) (works_span _ rfl))
      (works_span _ rfl)
  -- The classes of the row depend on the outcome.
  obtain ⟨id, name, outcome, glyph, duration⟩ := tool
  cases outcome <;>
    exact .element (.toolRow row _) (some (.tool _)) rfl rfl (fun _ => .toolRow mem) hcontents

theorem works_toolsMarkup (row : Row) :
    Works canLoadDeeper (.idle (some row)) (toolsMarkup row) (row.tools.map .tool)
      (row.tools.map (.toolRow row)) := by
  rw [toolsMarkup]
  split
  next hempty =>
    rw [List.isEmpty_iff.1 hempty]
    exact .nil
  next =>
    have hjoin : Works canLoadDeeper (.idle (some row)) (join (row.tools.map toolMarkup))
        (row.tools.flatMap fun tool => [.tool tool])
        (row.tools.flatMap fun tool => [.toolRow row tool]) :=
      .join fun tool mem => works_toolMarkup mem
    rw [← List.map_eq_flatMap, ← List.map_eq_flatMap] at hjoin
    exact .plain rfl hjoin

theorem works_depthLimitMarkup (row : Row) (label : String) :
    Works canLoadDeeper (.idle (some row)) (depthLimitMarkup canLoadDeeper row.id label) []
      [.loadDeeper canLoadDeeper row] := by
  refine .plain rfl (.before (.plain rfl (.ofText label)) ?_)
  cases canLoadDeeper <;>
    exact .element (.loadDeeper _ row) none rfl rfl (fun _ => .loadDeeper row) (.ofText _)

theorem works_bodyMarkup {row : Row} {nested : Markup Action} {parts : List Part}
    {targets : List Standing}
    (works : Works canLoadDeeper (.idle (some row)) nested parts targets)
    (hhidden : row.body.isExpanded = false → parts = [] ∧ targets = []) :
    Works canLoadDeeper (.idle (some row)) (bodyMarkup canLoadDeeper row nested) parts
      ((if row.body.isDepthLimited then [.loadDeeper canLoadDeeper row] else []) ++ targets) := by
  rw [bodyMarkup]
  cases hbody : row.body with
  | expanded => exact .plain rfl works
  | leaf | collapsed =>
    obtain ⟨rfl, rfl⟩ := hhidden (by rw [hbody]; rfl)
    exact .nil
  | depthLimited hidden =>
    obtain ⟨rfl, rfl⟩ := hhidden (by rw [hbody]; rfl)
    exact works_depthLimitMarkup row _

/-- In the element of a subcall, clicks are for it unless they are for one that is nested in it. -/
theorem works_node {row : Row} {nested : Markup Action} {parts : List Part}
    {targets : List Standing} (around? : Option Row)
    (works : Works canLoadDeeper (.idle (some row)) nested parts targets)
    (hhidden : row.body.isExpanded = false → parts = [] ∧ targets = []) :
    Works canLoadDeeper (.idle around?)
      (tagged "div" ["rlm-node"]
        (mainMarkup row ++ toolsMarkup row ++ bodyMarkup canLoadDeeper row nested))
      (row.parts ++ parts) (rowTargets canLoadDeeper row ++ targets) := by
  have hcontents := ((works_mainMarkup row).append (works_toolsMarkup row)).append
    (works_bodyMarkup works hhidden)
  rw [← List.append_assoc] at hcontents
  exact .element (.idle (some row)) (some (.row row)) rfl rfl (fun _ => .idle (some row)) hcontents

/-- In the subcalls of a rendered forest, at any depth, clicks do what they are meant to. -/
theorem works_nodesMarkup (state : Expansion) (bound depth : UInt32) (around? : Option Row)
    (forest : Forest Call) :
    Works canLoadDeeper (.idle around?)
      (nodesMarkup canLoadDeeper (renderForest state bound depth forest))
      ((renderForest state bound depth forest).toList.flatMap Row.parts)
      ((renderForest state bound depth forest).toList.flatMap (rowTargets canLoadDeeper)) := by
  induction forest generalizing depth around? with
  | nil => exact .nil
  | cons call children rest ihchildren ihrest =>
    rw [renderForest, nodesMarkup, Forest.toList, List.flatMap_cons, List.flatMap_append,
      ← List.append_assoc, List.flatMap_cons, List.flatMap_append, ← List.append_assoc]
    refine .append (works_node around? ?_ fun hhidden => ?_) (ihrest depth around?)
    · split
      · exact ihchildren (depth + 1) _
      · exact .nil
    · -- What is not displayed has no parts.
      rw [hhidden]
      exact ⟨rfl, rfl⟩

theorem works_viewMarkup (trajectory : Trajectory) (state : Expansion) (bound : UInt32)
    (isLoading : Bool) :
    let view := View.render trajectory state bound isLoading
    Works canLoadDeeper (.idle none) (viewMarkup canLoadDeeper view) view.parts
      (viewTargets canLoadDeeper view) := by
  intro view
  unfold view View.render
  split
  · refine .plain rfl (.join_of_nothing fun m hm => ?_)
    rw [List.eq_of_mem_replicate hm]
    exact .plain rfl .nil
  split
  · exact .before (works_summaryMarkup _ false) (.plain rfl (.plain rfl (.ofText _)))
  · refine .append (works_summaryMarkup _ true) (.plain rfl ?_)
    exact works_nodesMarkup state bound 0 none trajectory.subcalls

theorem works_markup (trajectory : Trajectory) (state : Expansion) (bound : UInt32)
    (isLoading : Bool) :
    let view := View.render trajectory state bound isLoading
    Works canLoadDeeper (.idle none) (Page.markup canLoadDeeper view) view.parts
      (viewTargets canLoadDeeper view) := by
  intro view
  show Works canLoadDeeper (.idle none) (.element ⟨"style", [], none⟩ (ofText Stylesheet.page) .nil
    ++ tagged "div" ["rlm-trajectory"] _) _ _
  refine .before (.plain rfl (.ofText _)) (.plain rfl ?_)
  exact works_viewMarkup trajectory state bound isLoading

end Pieces

/-- Every click on the page of a view follows the rules. The parts of the view, from top to bottom,
are what the elements of subcalls and the rows of tool calls stand for, in document order, and the
controls on the page are those of its rows. -/
theorem clicks_markup (trajectory : Trajectory) (state : Expansion) (bound : UInt32)
    (isLoading : Bool) (handlers : Handlers) :
    let view := View.render trajectory state bound isLoading
    let page := Page.markup handlers.loadDeeper view
    let clicks := page.sites isPart [] view.parts
    clicks.map (·.map (·.element)) = page.chains [] ∧
      page.count isPart = view.parts.length ∧
      clicks.filterMap target? = viewTargets handlers.loadDeeper view ∧
      ∀ click ∈ clicks, FollowsRules handlers.loadDeeper (standing click) := by
  intro view page clicks
  have works : Works handlers.loadDeeper (.idle none) page view.parts
      (viewTargets handlers.loadDeeper view) := works_markup trajectory state bound isLoading
  have hclicks : clicks = page.sites isPart [] (view.parts ++ []) := by rw [List.append_nil]
  refine ⟨map_element_sites isPart [] view.parts page, works.count, ?_, fun click hclick => ?_⟩
  · rw [hclicks]
    exact works.targets [] standing_nil []
  · rw [hclicks] at hclick
    exact (works.meant (.idle none) [] standing_nil [] click hclick).followsRules

/-- The control for the children of `recurse-1` is inside of `recurse-1`, which is inside of
`root`. -/
theorem clicks_markup_demo :
    let view := View.render demoTrajectory (Expansion.collapsed.expandAll ["root"]) 3 false
    let page := Page.markup Handlers.all.loadDeeper view
    ∃ click ∈ page.sites isPart [] view.parts,
      (click.filter fun site => isNode site.element).length = 2 ∧
      controls click = [.childrenToggle, .main] ∧
      dispatched click = [.toggleChildren "recurse-1"] := by
  intro view page
  obtain ⟨-, -, -, rules⟩ :=
    clicks_markup demoTrajectory (Expansion.collapsed.expandAll ["root"]) 3 false .all
  have hclick : ∃ click ∈ page.sites isPart [] view.parts,
      (click.filter fun site => isNode site.element).length = 2 ∧
      controls click = [.childrenToggle, .main] ∧ (row? click).map (·.id) = some "recurse-1" := by
    decide +kernel
  obtain ⟨click, hclick, hnodes, hcontrols, hid⟩ := hclick
  have htoggle : .childrenToggle ∈ (standing click).controls := by
    rw [show (standing click).controls = _ from hcontrols]
    exact List.mem_cons_self
  obtain ⟨row, hrow, hdispatched⟩ := (rules click hclick).childrenToggle htoggle
  rw [show row? click = some row from hrow, Option.map_some, Option.some.injEq] at hid
  rw [hid] at hdispatched
  exact ⟨click, hclick, hnodes, hcontrols, hdispatched⟩

end Page

end RunTrace
