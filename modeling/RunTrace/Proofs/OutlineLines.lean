import RunTrace.Outline
import RunTrace.Proofs.Controls
import RunTrace.Proofs.Decimal.Digits
import RunTrace.Proofs.RowConsistency

/-!
# The lines of the outline

The outline has a line for its summary and, for every row, one for the subcall and one each for an
error, a tool call and children that are beyond the bound. What is recorded is written as it is,
however, so a line feed in it ends the line it is in. Here the lines are counted that somebody finds
who reads the text.

## Main results

* `Outline.length_readLines_text`: the text of a view is read with the lines that were written, and
  one more for every line feed within them;
* `Outline.readLines_text`: without line feeds within them, the lines are read as they were written;
* `Outline.sum_lineBreaks_rowLines`: the line feeds within the lines of a row are those of the
  texts that it repeats;
* `Outline.length_readLines_render`: the number of lines of the outline of a trajectory.
-/

namespace RunTrace

namespace Outline

/-! ## Reading lines -/

/-- The lines of a text: what is in front of each line feed, and what is behind the last one unless
that is nothing. -/
def linesOf : List Char → List (List Char)
  | [] => []
  | c :: cs =>
    if c = '\n' then [] :: linesOf cs
    else match linesOf cs with
      | [] => [[c]]
      | line :: more => (c :: line) :: more

/-- The lines that are read in a text. -/
def readLines (text : String) : List String :=
  (linesOf text.toList).map String.ofList

/-- The number of line feeds in a text. -/
def lineBreaks (text : String) : Nat :=
  text.toList.count '\n'

theorem lineBreaks_eq_zero_iff {text : String} : lineBreaks text = 0 ↔ '\n' ∉ text.toList :=
  List.count_eq_zero

/-- A line with a line feed behind it is read as one line if it has none within. -/
theorem linesOf_append {line : List Char} (h : '\n' ∉ line) (rest : List Char) :
    linesOf (line ++ '\n' :: rest) = line :: linesOf rest := by
  induction line with
  | nil => rw [List.nil_append, linesOf, if_pos rfl]
  | cons c line ih =>
    rw [List.mem_cons, not_or] at h
    rw [List.cons_append, linesOf, if_neg (Ne.symm h.1), ih h.2]

/-- Every line feed within a line makes another line of it. -/
theorem length_linesOf_append (line rest : List Char) :
    (linesOf (line ++ '\n' :: rest)).length = line.count '\n' + 1 + (linesOf rest).length := by
  induction line with
  | nil =>
    rw [List.nil_append, linesOf, if_pos rfl, List.length_cons, List.count_nil]
    omega
  | cons c line ih =>
    rw [List.cons_append, linesOf]
    by_cases hbreak : c = '\n'
    · rw [if_pos hbreak, List.length_cons, ih, hbreak, List.count_cons_self]
      omega
    · rw [if_neg hbreak, List.count_cons_of_ne hbreak]
      -- There is a line behind the character, as the line feed at the end is still to come.
      split
      · next hnil =>
        rw [hnil, List.length_nil] at ih
        omega
      · next first more hmore =>
        rw [hmore] at ih
        exact ih

theorem toList_text (view : View) :
    (text view).toList = (lines view).flatMap fun line => line.toList ++ ['\n'] := by
  rw [text, String.toList_join, List.flatMap_map]
  simp

/-- The lines that are read in the text of a view are those that were written, and one more for
every line feed within them. -/
theorem length_readLines_text (view : View) :
    (readLines (text view)).length =
      (lines view).length + ((lines view).map lineBreaks).sum := by
  rw [readLines, List.length_map, toList_text]
  induction lines view with
  | nil => rfl
  | cons line more ih =>
    rw [List.flatMap_cons, List.append_assoc, List.singleton_append, length_linesOf_append, ih,
      List.length_cons, List.map_cons, List.sum_cons, lineBreaks]
    omega

/-- Lines without a line feed are read as they were written. -/
theorem readLines_text {view : View} (h : ∀ line ∈ lines view, '\n' ∉ line.toList) :
    readLines (text view) = lines view := by
  rw [readLines, toList_text]
  generalize lines view = written at h ⊢
  induction written with
  | nil => rfl
  | cons line more ih =>
    rw [List.forall_mem_cons] at h
    rw [List.flatMap_cons, List.append_assoc, List.singleton_append, linesOf_append h.1,
      List.map_cons, ih h.2, String.ofList_toList]

/-! ## Line feeds -/

@[simp]
theorem lineBreaks_append (text more : String) :
    lineBreaks (text ++ more) = lineBreaks text + lineBreaks more := by
  rw [lineBreaks, String.toList_append, List.count_append]
  rfl

theorem lineBreaks_ofList_eq_zero {chars : List Char} (h : ∀ c ∈ chars, c ≠ '\n') :
    lineBreaks (String.ofList chars) = 0 := by
  rw [lineBreaks_eq_zero_iff, String.toList_ofList]
  exact fun hmem => h _ hmem rfl

/-- Digits are no line feeds. -/
theorem ne_of_isDigit {c : Char} (h : c.isDigit = true) : c ≠ '\n' := by
  rintro rfl
  exact absurd h (by decide)

@[simp]
theorem lineBreaks_ofNat (n : Nat) : lineBreaks (Decimal.ofNat n) = 0 :=
  lineBreaks_ofList_eq_zero fun _ hmem => ne_of_isDigit (Decimal.isDigit_of_mem_digits hmem)

/-- Grouping puts nothing but commas between digits. -/
theorem mem_or_eq_of_mem_groupDigits {digits : List Char} {c : Char}
    (h : c ∈ Display.groupDigits digits) : c ∈ digits ∨ c = ',' := by
  induction digits with
  | nil => exact .inl h
  | cons digit more ih =>
    rw [Display.groupDigits] at h
    split at h
    all_goals
      simp only [List.mem_cons] at h ⊢
      tauto

@[simp]
theorem lineBreaks_thousands (n : UInt64) : lineBreaks (Display.thousands n) = 0 := by
  refine lineBreaks_ofList_eq_zero fun c hmem => ?_
  rcases mem_or_eq_of_mem_groupDigits hmem with hdigit | rfl
  · exact ne_of_isDigit (Decimal.isDigit_of_mem_digits hdigit)
  · decide

@[simp]
theorem lineBreaks_duration (ms : UInt64) : lineBreaks (Display.duration ms) = 0 := by
  rw [Display.duration]
  split
  · rw [lineBreaks_append, lineBreaks_ofNat]
    rfl
  · split
    · rw [lineBreaks_append, lineBreaks_ofNat]
      rfl
    · simp only [lineBreaks_append, lineBreaks_ofNat]
      rfl

/-- A fixed number of places is written with digits and a point. -/
theorem isDigit_or_eq_of_mem_fixedText {units places : Nat} {c : Char}
    (h : c ∈ Decimal.fixedText units places) : c.isDigit = true ∨ c = '.' := by
  have hpadded : ∀ {width : Nat}, ∀ c ∈ List.replicate width '0' ++ Decimal.digits units,
      c.isDigit = true := by
    intro width c hmem
    rcases List.mem_append.1 hmem with hzero | hdigit
    · exact Decimal.isDigit_of_mem_zeros hzero
    · exact Decimal.isDigit_of_mem_digits hdigit
  unfold Decimal.fixedText at h
  split at h
  · exact .inl (hpadded c (List.mem_of_mem_take h))
  · rcases List.mem_append.1 h with hwhole | hfraction
    · exact .inl (hpadded c (List.mem_of_mem_take hwhole))
    · rcases List.mem_cons.1 hfraction with rfl | hfraction
      · exact .inr rfl
      · exact .inl (hpadded c (List.mem_of_mem_drop hfraction))

theorem lineBreaks_fixed (places : Nat) (x : Float) : lineBreaks (Decimal.fixed places x) = 0 := by
  refine lineBreaks_ofList_eq_zero fun c hmem => ?_
  have hfixed : ∀ c ∈ Decimal.fixedText ((Decimal.ofFloat x).roundToPlaces places) places,
      c ≠ '\n' := by
    intro c hmem
    rcases isDigit_or_eq_of_mem_fixedText hmem with hdigit | rfl
    · exact ne_of_isDigit hdigit
    · decide
  split at hmem
  · rw [Decimal.signed] at hmem
    split at hmem
    · rcases List.mem_cons.1 hmem with rfl | hmem
      · decide
      · exact hfixed c hmem
    · exact hfixed c hmem
  -- What is no number or not finite is written with letters.
  · rintro rfl
    rw [Decimal.nonFiniteText] at hmem
    split at hmem
    · exact absurd hmem (by decide)
    · split at hmem <;> exact absurd hmem (by decide)

@[simp]
theorem lineBreaks_cost (cost : Float) : lineBreaks (Display.cost cost) = 0 := by
  rw [Display.cost, lineBreaks_append, lineBreaks_fixed]
  rfl

@[simp]
theorem lineBreaks_tokens (counts : TokenCounts) : lineBreaks (Display.tokens counts) = 0 :=
  lineBreaks_thousands counts.total

@[simp]
theorem lineBreaks_glyph (outcome : Outcome) : lineBreaks (Display.glyph outcome) = 0 := by
  cases outcome <;> rfl

@[simp]
theorem lineBreaks_name (outcome : Outcome) : lineBreaks outcome.name = 0 := by
  cases outcome <;> rfl

@[simp]
theorem lineBreaks_marker (body : Body) : lineBreaks (marker body) = 0 := by
  cases body with
  | leaf | collapsed | expanded => rfl
  | depthLimited hidden => exact (by decide : lineBreaks "…" = 0)

@[simp]
theorem lineBreaks_indent (depth : Nat) : lineBreaks (indent depth) = 0 :=
  lineBreaks_ofList_eq_zero fun c hmem => by
    rw [List.eq_of_mem_replicate hmem]
    decide

@[simp]
theorem lineBreaks_nestedLabel (count : Nat) : lineBreaks (Display.nestedLabel count) = 0 := by
  rw [Display.nestedLabel]
  split
  · rfl
  · rw [lineBreaks_append, lineBreaks_ofNat]
    rfl

/-! ## The lines of a view -/

theorem summaryLine_eq (summary : Summary) :
    summaryLine summary = "run " ++ summary.runId ++ " | " ++ (summary.totalSubcalls ++ " subcalls")
      ++ " | " ++ ("depth " ++ summary.maxDepth) ++ " | " ++ (summary.totalTokens ++ " tokens")
      ++ " | " ++ summary.totalCost ++ " | " ++ summary.totalDuration := rfl

/-- Within the line of the summary, the run id is written as it is recorded. -/
theorem lineBreaks_summaryLine (trajectory : Trajectory) :
    lineBreaks (summaryLine trajectory.summary) = lineBreaks trajectory.runId := by
  simp only [summaryLine_eq, Trajectory.summary, lineBreaks_append, lineBreaks_thousands,
    lineBreaks_ofNat, lineBreaks_tokens, lineBreaks_cost, lineBreaks_duration]
  -- What is left besides the run id is the text between the numbers, which is fixed.
  simp [lineBreaks]

/-- Within the line of a subcall, the name and the id are written as they are recorded. -/
theorem lineBreaks_callLine {row : Row} {subcall : Subcall} (h : row.TellsOf subcall) :
    lineBreaks (callLine row) = lineBreaks row.name + lineBreaks row.id := by
  simp only [callLine, lineBreaks_append, lineBreaks_marker, h.glyph, lineBreaks_glyph, h.duration,
    lineBreaks_duration, h.tokens, lineBreaks_tokens, h.cost, lineBreaks_cost]
  simp [lineBreaks]

/-- Within the line of a tool call, the name and the id are written as they are recorded. -/
theorem lineBreaks_toolLine {tool : ToolRow} {call : ToolCall} (h : tool.TellsOf call) :
    lineBreaks (toolLine tool) = lineBreaks tool.name + lineBreaks tool.id := by
  unfold toolLine
  simp only [lineBreaks_append, h.glyph, lineBreaks_glyph, lineBreaks_name, h.duration,
    lineBreaks_duration]
  simp [lineBreaks]

/-- Within the line of an error, the error is written as it is recorded. -/
theorem sum_lineBreaks_errorLine (error : Option String) :
    ((error.map fun error => "    error: " ++ error).toList.map lineBreaks).sum =
      (error.toList.map lineBreaks).sum := by
  cases error with
  | none => rfl
  | some error =>
    have hline : lineBreaks ("    error: " ++ error) = lineBreaks error := by
      rw [lineBreaks_append]
      simp [lineBreaks]
    simp [hline]

/-- Nothing that is recorded is in the line that stands in for children. -/
theorem sum_lineBreaks_labelLine (body : Body) :
    ((body.label?.map fun label => "    " ++ label ++ " (load deeper levels)").toList.map
      lineBreaks).sum = 0 := by
  cases body with
  | leaf | collapsed | expanded => rfl
  | depthLimited hidden =>
    have hline : lineBreaks ("    " ++ Display.nestedLabel hidden ++ " (load deeper levels)") =
        0 := by
      simp only [lineBreaks_append, lineBreaks_nestedLabel]
      rfl
    simp [Body.label?, hline]

theorem sum_lineBreaks_toolLines {tools : List ToolRow} {calls : List ToolCall}
    (h : ∀ tool ∈ tools, ∃ call ∈ calls, tool.TellsOf call) :
    ((tools.map toolLine).map lineBreaks).sum =
      ((tools.flatMap fun tool => [tool.name, tool.id]).map lineBreaks).sum := by
  induction tools with
  | nil => rfl
  | cons tool more ih =>
    rw [List.forall_mem_cons] at h
    obtain ⟨⟨call, -, htells⟩, hmore⟩ := h
    simp only [List.map_cons, List.sum_cons, List.flatMap_cons, List.cons_append, List.nil_append,
      lineBreaks_toolLine htells, ih hmore]
    omega

end Outline

/-- The texts that are recorded of a subcall by itself. -/
def Call.texts (call : Call) : List String :=
  call.name :: call.id ::
    (call.error.toList ++ call.toolCalls.flatMap fun tool => [tool.name, tool.id])

/-- The texts that are recorded in a trajectory. -/
def Trajectory.texts (trajectory : Trajectory) : List String :=
  trajectory.runId :: trajectory.subcalls.toList.flatMap Call.texts

/-- The texts that the lines of a row repeat. -/
def Row.texts (row : Row) : List String :=
  row.name :: row.id ::
    (row.error.toList ++ row.tools.flatMap fun tool => [tool.name, tool.id])

/-- The number of lines that are written for a row: one for the subcall, one each for an error and
for a tool call, and one for children that are beyond the bound. -/
def Row.lineCount (row : Row) : Nat :=
  1 + (if row.error.isSome then 1 else 0) + row.tools.length
    + (if row.body.isDepthLimited then 1 else 0)

namespace Outline

theorem length_rowLines (row : Row) : (rowLines row).length = row.lineCount := by
  rw [rowLines, Row.lineCount, List.length_map]
  cases row.error <;> cases row.body <;> simp [Body.label?, Body.isDepthLimited] <;> omega

/-- The line feeds within the lines of a row are those of the texts that it repeats. -/
theorem sum_lineBreaks_rowLines {row : Row} {subcall : Subcall} (h : row.TellsOf subcall)
    (htools : ∀ tool ∈ row.tools, ∃ call ∈ subcall.value.toolCalls, tool.TellsOf call) :
    ((rowLines row).map lineBreaks).sum = (row.texts.map lineBreaks).sum := by
  -- The indentation may be left out, and then each kind of line is counted by itself.
  have hindent : lineBreaks ∘ (indent row.depth.toNat ++ ·) = lineBreaks := by
    funext line
    simp
  rw [rowLines, List.map_map, hindent, List.map_append, List.map_append, List.map_append,
    List.sum_append, List.sum_append, List.sum_append, sum_lineBreaks_errorLine,
    sum_lineBreaks_toolLines htools, sum_lineBreaks_labelLine]
  simp only [Row.texts, List.map_cons, List.map_nil, List.map_append, List.sum_cons,
    List.sum_nil, List.sum_append, lineBreaks_callLine h]
  omega

/-- What the lines of a row repeat is recorded of its subcall. -/
theorem mem_texts_of_mem_texts_row {state : Expansion} {bound depth : UInt32} {subcall : Subcall}
    {text : String} (h : text ∈ (Subcall.row state bound depth subcall).texts) :
    text ∈ subcall.value.texts := by
  simp only [Row.texts, Call.texts, List.mem_cons, List.mem_append, List.mem_flatMap,
    Option.mem_toList] at h ⊢
  rcases h with rfl | rfl | herror | ⟨tool, htool, htext⟩
  · exact .inl rfl
  · exact .inr (.inl rfl)
  · exact .inr (.inr (.inl ((error_row_eq_some_iff state bound depth subcall text).1 herror).2))
  · obtain ⟨call, hcall, htells⟩ := exists_tellsOf_of_mem_tools htool
    rw [htells.name, htells.id] at htext
    exact .inr (.inr (.inr ⟨call, hcall, htext⟩))

/-- What the lines of the rows repeat is recorded in the trajectory. -/
theorem mem_texts_of_mem_texts_visibleRows {trajectory : Trajectory} {state : Expansion}
    {bound : UInt32} {text : String}
    (h : text ∈ (View.render trajectory state bound false).visibleRows.flatMap Row.texts) :
    text ∈ trajectory.subcalls.toList.flatMap Call.texts := by
  obtain ⟨row, hrow, htext⟩ := List.mem_flatMap.1 h
  obtain ⟨item, hitem, -, rfl⟩ := mem_visibleRows.1 hrow
  refine List.mem_flatMap.2 ⟨item.2.value, ?_, mem_texts_of_mem_texts_row htext⟩
  -- The subcalls are at the places of the trajectory.
  rw [← Forest.map_value_subtrees, ← Forest.map_snd_preorder 0, ← trajectory.walk_eq_preorder,
    trajectory.map_snd_walk]
  exact List.mem_map_of_mem (List.mem_map_of_mem hitem)

/-- The line feeds within the lines of the rows are those of the texts that they repeat. -/
theorem sum_lineBreaks_visibleRows (trajectory : Trajectory) (state : Expansion) (bound : UInt32) :
    let rows := (View.render trajectory state bound false).visibleRows
    ((rows.flatMap rowLines).map lineBreaks).sum =
      ((rows.flatMap Row.texts).map lineBreaks).sum := by
  intro rows
  have hrow : ∀ row ∈ rows,
      ((rowLines row).map lineBreaks).sum = (row.texts.map lineBreaks).sum := by
    intro row hmem
    obtain ⟨item, -, -, rfl⟩ := mem_visibleRows.1 hmem
    exact sum_lineBreaks_rowLines (tellsOf_row ..) fun tool => exists_tellsOf_of_mem_tools
  simp only [List.flatMap_def, List.map_flatten, List.sum_flatten, List.map_map]
  exact congrArg List.sum (List.map_congr_left hrow)

/-- The text of the outline of a trajectory that has subcalls is read with a line for the summary
and those of the visible rows: one for each of them, and one more each for an error, for every tool
call and for children beyond the bound. On top of these comes one line for every line feed in the
texts of the trajectory that the rows repeat, which are written as they are recorded. So the number
of lines is that of the rows exactly if none of these texts has a line feed, and then the lines are
those of the rows. -/
theorem length_readLines_render {trajectory : Trajectory} (hsubcalls : trajectory.isEmpty = false)
    (state : Expansion) (bound : UInt32) :
    let view := View.render trajectory state bound false
    let expected := 1 + (view.visibleRows.map Row.lineCount).sum
    let repeated := trajectory.runId :: view.visibleRows.flatMap Row.texts
    (∀ text ∈ repeated, text ∈ trajectory.texts) ∧
      (readLines (text view)).length = expected + (repeated.map lineBreaks).sum ∧
      ((readLines (text view)).length = expected ↔ ∀ text ∈ repeated, '\n' ∉ text.toList) ∧
      ((∀ text ∈ repeated, '\n' ∉ text.toList) → readLines (text view) =
        summaryLine trajectory.summary :: view.visibleRows.flatMap rowLines) := by
  intro view expected repeated
  have hlines : lines view =
      summaryLine trajectory.summary :: view.visibleRows.flatMap rowLines :=
    lines_render hsubcalls state bound
  -- As many lines are written as the rows call for, and the line feeds within them are those of
  -- the texts that they repeat.
  have hbreaks : ((lines view).map lineBreaks).sum = (repeated.map lineBreaks).sum := by
    rw [hlines, List.map_cons, List.sum_cons, lineBreaks_summaryLine,
      sum_lineBreaks_visibleRows trajectory state bound]
    rfl
  have hwritten : (lines view).length = expected := by
    rw [hlines, List.length_cons, List.length_flatMap]
    simp only [length_rowLines]
    exact Nat.add_comm _ 1
  have hnone : (repeated.map lineBreaks).sum = 0 ↔ ∀ text ∈ repeated, '\n' ∉ text.toList := by
    simp only [List.sum_eq_zero_iff, List.forall_mem_map, lineBreaks_eq_zero_iff]
  -- Every one of these line feeds is read as the end of a line.
  have hcount : (readLines (text view)).length = expected + (repeated.map lineBreaks).sum := by
    rw [length_readLines_text, hwritten, hbreaks]
  refine ⟨?_, hcount, ?_, fun h => ?_⟩
  · exact List.forall_mem_cons.2 ⟨List.mem_cons_self, fun text htext =>
      List.mem_cons_of_mem _ (mem_texts_of_mem_texts_visibleRows htext)⟩
  · rw [hcount, ← hnone]
    omega
  · rw [← hlines]
    refine readLines_text fun line hline => ?_
    rw [← hnone, ← hbreaks, List.sum_eq_zero_iff] at h
    exact lineBreaks_eq_zero_iff.1 (h _ (List.mem_map_of_mem hline))

/-- With the children of `root` and the tool call of `locate` displayed there are nine lines, and as
many more as the run id has line feeds. -/
theorem length_readLines_render_demo :
    let trajectory := { demoTrajectory with runId := "run-7f3a\nrun-7f3b" }
    let state := (Expansion.collapsed.expandAll ["root"]).toggleTools ⟨DemoTrajectory.locate, .nil⟩
    let view := View.render trajectory state 2 false
    trajectory.isEmpty = false ∧
      view.visibleRows.map Row.lineCount = [1, 1, 3, 2, 1] ∧
      lineBreaks trajectory.runId = 1 ∧
      (view.visibleRows.flatMap Row.texts).map lineBreaks = List.replicate 13 0 ∧
      (readLines (text view)).length = 9 + 1 := by
  intro trajectory state view
  have hsubcalls : trajectory.isEmpty = false := rfl
  have hrows : view.visibleRows.map Row.lineCount = [1, 1, 3, 2, 1] := by decide +kernel
  have hrun : lineBreaks trajectory.runId = 1 := by decide
  have hrepeated :
      (view.visibleRows.flatMap Row.texts).map lineBreaks = List.replicate 13 0 := by
    decide +kernel
  obtain ⟨-, hcount, -⟩ := length_readLines_render hsubcalls state 2
  refine ⟨hsubcalls, hrows, hrun, hrepeated, hcount.trans ?_⟩
  rw [List.map_cons, hrepeated, hrows, hrun]
  rfl

/-- A subcall that is not recorded. -/
def unrecordedCall : Call :=
  DemoTrajectory.call "deploy" "rlm.deploy" 0 0 2000 1500 420 20

/-- A trajectory of one subcall that failed, with an error that goes on behind a line feed as the
line of another subcall does. -/
def forgingTrajectory : Trajectory :=
  { demoTrajectory with
    subcalls :=
      .cons { DemoTrajectory.locate with
          depth := 0
          error := some
            ("no such symbol\n" ++ callLine (Subcall.row .collapsed 10 0 ⟨unrecordedCall, .nil⟩)) }
        .nil .nil }

theorem load_forgingTrajectory :
    Trajectory.load (Format.write forgingTrajectory) = .ok forgingTrajectory := by
  have hvalid : forgingTrajectory.validate = .ok () := by decide +kernel
  have htotal : forgingTrajectory.totalCost.isFinite = true := by decide +kernel
  have hheight : forgingTrajectory.subcalls.height ≤ Format.maxHeight := by decide +kernel
  have hcosts : ∀ cost ∈ forgingTrajectory.costs, Format.ReadsBack cost := by decide +kernel
  exact load_of_readsBack hvalid htotal hheight hcosts

/-- Of a trajectory that is loaded, more lines may be read than its rows call for: one of them is
that of a root that is not recorded. -/
theorem length_readLines_forging :
    let view := View.render forgingTrajectory .collapsed 10 false
    let outline := [
      "run run-7f3a | 16 subcalls | depth 12 | 28,710 tokens | $0.44 | 5m 1s",
      "  ✗ rlm.locate symbol [locate]  950ms  640 tok  $0.01",
      "    error: no such symbol",
      "  ✓ rlm.deploy [deploy]  2s  1,920 tok  $0.02"]
    Trajectory.load (Format.write forgingTrajectory) = .ok forgingTrajectory ∧
      forgingTrajectory.isEmpty = false ∧
      view.visibleRows.map (fun row => (row.id, row.lineCount)) = [("locate", 2)] ∧
      readLines (text view) = outline ∧
      (readLines (text view)).length ≠ 1 + (view.visibleRows.map Row.lineCount).sum := by
  intro view outline
  have hlines : readLines (text view) = outline := by decide +kernel
  have hcount : view.visibleRows.map Row.lineCount = [2] := by decide +kernel
  refine ⟨load_forgingTrajectory, rfl, by decide +kernel, hlines, ?_⟩
  rw [hlines, hcount]
  decide

end Outline

end RunTrace
