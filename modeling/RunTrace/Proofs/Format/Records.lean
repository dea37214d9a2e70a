import RunTrace.Proofs.Format.Fields
import RunTrace.Proofs.Json.Grammar

/-!
# Records, written and read

Every record is read from the object that is written for it, with its costs read again, as long as
these are finite and the trees are not higher than the reader allows. Each level of a tree takes two
levels of the text: the object of a subcall, and the list of its children.

## Main results

* `readRecord_subcallValue`: a subcall is read from its object if its children are;
* `mapM_readRecord_subcallValues`: a forest is read from the objects of its trees, with all costs
  read again;
* `read_write`: so is a trajectory from its text.
-/

namespace RunTrace.Format

/-! ## Fields of records -/

section Fields

variable (levels : Nat)

theorem readField_text (text : String) : readField levels .text (textValue text) = .ok text :=
  readText_textValue .text text

theorem readField_instant (t : Timestamp) :
    readField levels .instant (textValue t.text) = .ok t :=
  readInstant_text t

theorem readField_word32 (n : UInt32) : readField levels .word32 (wordValue n.toNat) = .ok n := by
  change UInt32.ofNat <$> readWord UInt32.size .word32 (wordValue n.toNat) = _
  rw [readWord_wordValue n.toNat_lt (by decide)]
  exact congrArg Except.ok UInt32.ofNat_toNat

theorem readField_word64 (n : UInt64) : readField levels .word64 (wordValue n.toNat) = .ok n := by
  change UInt64.ofNat <$> readWord UInt64.size .word64 (wordValue n.toNat) = _
  rw [readWord_wordValue n.toNat_lt (Nat.le_refl _)]
  exact congrArg Except.ok UInt64.ofNat_toNat

theorem readField_real {x : Float} (h : x.isFinite = true) :
    readField levels .real (realValue x) = .ok (reread x) :=
  readReal_realValue h

theorem readField_outcome (outcome : Outcome) :
    readField levels .outcome (textValue outcome.name) = .ok outcome :=
  readOutcome_name levels outcome

/-- An optional value that is written as a text is read if it is read where it has to be. -/
theorem readField_optional {kind : Kind} {text : String} {value : kind.Value}
    (h : readField levels kind (textValue text) = .ok value) :
    readField levels (.optional kind) (textValue text) = .ok (some value) := by
  change some <$> readField levels kind (textValue text) = _
  rw [h]
  rfl

/-- A list takes a level, so its items are read where one less may be opened. -/
theorem readField_list (record : Record) (items : List Json) :
    readField (levels + 1) (.list record) (.array items) = items.mapM (readRecord levels record) :=
  rfl

end Fields

/-- An optional field is spelled by its member, or by none if there is no value. -/
theorem Spells.optional {read : (kind : Kind) → Json → Except ReadError kind.Value}
    {fields : List Field} {members : List Json.Member} {values : Values fields} {key : String}
    (kind : Kind) {write : kind.Value → Json}
    (hread : ∀ value, read (.optional kind) (write value) = .ok (some value))
    (value? : Option kind.Value) (rest : Spells read fields members values) :
    Spells read (⟨key, .optional kind⟩ :: fields)
      (optionalField key (value?.map write) ++ members) (value?, values) := by
  cases value? with
  | none => exact .absent rfl rest
  | some value => exact .present (hread value) rest

/-- The items of a list are read as they were written if each of them is. -/
theorem mapM_map_eq_ok {α β ε : Type} {write : α → β} {read : β → Except ε α} {items : List α}
    (h : ∀ item ∈ items, read (write item) = .ok item) :
    (items.map write).mapM read = .ok items := by
  induction items with
  | nil => rfl
  | cons item items ih =>
    obtain ⟨hitem, hitems⟩ := List.forall_mem_cons.1 h
    rw [List.map_cons, List.mapM_cons, hitem]
    change ((items.map write).mapM read >>= fun items => pure (item :: items)) = _
    rw [ih hitems]
    rfl

/-! ## Records -/

theorem readRecord_tokensValue (levels : Nat) (tokens : TokenCounts) :
    readRecord (levels + 1) .tokenCounts (tokensValue tokens) = .ok tokens := by
  have hspells : Spells (readField levels) Record.tokenCounts.fields _
      (tokens.input, tokens.output, ()) :=
    .present (readField_word64 levels tokens.input) <|
    .present (readField_word64 levels tokens.output) .nil
  exact readRecord_of_spells hspells

theorem readRecord_toolCallValue (levels : Nat) (call : ToolCall) :
    readRecord (levels + 1) .toolCall (toolCallValue call) = .ok call := by
  have hspells : Spells (readField levels) Record.toolCall.fields _
      (call.id, call.name, call.outcome, call.durationMs, ()) :=
    .present (readField_text levels call.id) <|
    .present (readField_text levels call.name) <|
    .present (readField_outcome levels call.outcome) <|
    .present (readField_word64 levels call.durationMs) .nil
  exact readRecord_of_spells hspells

/-- A subcall is read from its object, with its cost read again, if its children are read from
theirs. -/
theorem readRecord_subcallValue {levels : Nat} {call : Call} {children : Forest Call}
    {items : List Json} (hcost : call.cost.isFinite = true)
    (hitems : items.mapM (readRecord (levels + 1) .subcall) = .ok children.trees) :
    readRecord (levels + 3) .subcall (subcallValue call items) = .ok ⟨call.reread, children⟩ := by
  have htokens : readField (levels + 2) (.record .tokenCounts) (tokensValue call.tokens) =
      .ok call.tokens := readRecord_tokensValue (levels + 1) call.tokens
  have htools : readField (levels + 2) (.list .toolCall)
      (.array (call.toolCalls.map toolCallValue)) = .ok call.toolCalls := by
    rw [readField_list]
    exact mapM_map_eq_ok fun tool _ => readRecord_toolCallValue levels tool
  have hchildren : readField (levels + 2) (.list .subcall) (.array items) = .ok children.trees := by
    rw [readField_list, hitems]
  have herror : Spells (readField (levels + 2)) [⟨"error", .optional .text⟩]
      (optionalField "error" (call.error.map textValue) ++ []) (call.error, ()) :=
    .optional .text (fun text => readField_optional _ (readField_text _ text)) call.error .nil
  -- The members in the order of the fields; only `completedAt` and `error` may be left out.
  have hspells : Spells (readField (levels + 2)) Record.subcall.fields _
      (call.id, call.depth, call.name, call.outcome, call.startedAt, call.completedAt,
        call.durationMs, call.tokens, reread call.cost, call.toolCalls, children.trees, call.error,
        ()) :=
    .present (readField_text _ call.id) <|
    .present (readField_word32 _ call.depth) <|
    .present (readField_text _ call.name) <|
    .present (readField_outcome _ call.outcome) <|
    .present (readField_instant _ call.startedAt) <|
    .optional .instant (fun t => readField_optional _ (readField_instant _ t)) call.completedAt <|
    .present (readField_word64 _ call.durationMs) <|
    .present htokens <|
    .present (readField_real _ hcost) <|
    .present htools <|
    .present hchildren herror
  rw [List.append_nil] at hspells
  simp only [subcallValue, List.append_assoc, List.cons_append, List.nil_append]
  refine (readRecord_of_spells hspells).trans ?_
  -- The children were read as a list of trees, which makes up the forest again.
  change Except.ok (⟨call.reread, .ofTrees children.trees⟩ : Subcall) = _
  rw [Forest.ofTrees_trees]

/-- A forest is read from the objects of its trees, with all costs read again, if there are two
levels of the text for each of its own. -/
theorem mapM_readRecord_subcallValues {forest : Forest Call} {levels : Nat}
    (hlevels : 2 * forest.height < levels)
    (hcosts : ∀ call ∈ forest.toList, call.cost.isFinite = true) :
    (subcallValues forest).mapM (readRecord levels .subcall) =
      .ok (forest.map Call.reread).trees := by
  induction forest generalizing levels with
  | nil => rfl
  | cons call children rest ihc ihr =>
    simp only [Forest.height] at hlevels
    -- Two levels are opened on the way to the children, none on the way to the next tree.
    obtain ⟨levels, rfl⟩ : ∃ n, levels = n + 3 := ⟨levels - 3, by omega⟩
    simp only [Forest.toList, List.forall_mem_cons, List.forall_mem_append] at hcosts
    obtain ⟨hcost, hbelow, hbehind⟩ := hcosts
    have hchildren : (subcallValues children).mapM (readRecord (levels + 1) .subcall) =
        .ok (children.map Call.reread).trees := ihc (by omega) hbelow
    have hrest : (subcallValues rest).mapM (readRecord (levels + 3) .subcall) =
        .ok (rest.map Call.reread).trees := ihr (by omega) hbehind
    rw [subcallValues, List.mapM_cons, readRecord_subcallValue hcost hchildren]
    change ((subcallValues rest).mapM (readRecord (levels + 3) .subcall)
      >>= fun trees => pure (⟨call.reread, children.map Call.reread⟩ :: trees)) = _
    rw [hrest]
    rfl

/-- The height of the highest forest that is read. -/
def maxHeight : Nat := 62

/-- The conditions under which a trajectory is read from its text. -/
structure Writable (trajectory : Trajectory) : Prop where
  totalCost : trajectory.totalCost.isFinite = true
  costs : ∀ call ∈ trajectory.subcalls.toList, call.cost.isFinite = true
  height : trajectory.subcalls.height ≤ maxHeight

/-- A trajectory is read from its object, with all costs read again. -/
theorem readRecord_trajectoryValue {trajectory : Trajectory} (h : Writable trajectory) :
    readRecord nestingLimit .trajectory (trajectoryValue trajectory) = .ok trajectory.reread := by
  -- Of the 127 levels, the object and the list of the subcalls take two.
  have hheight : 2 * trajectory.subcalls.height < 125 := by
    have := h.height
    simp only [maxHeight] at this
    omega
  have htokens : readField 126 (.record .tokenCounts) (tokensValue trajectory.totalTokens) =
      .ok trajectory.totalTokens := readRecord_tokensValue 125 trajectory.totalTokens
  have hsubcalls : readField 126 (.list .subcall)
      (.array (subcallValues trajectory.subcalls)) = .ok trajectory.reread.subcalls.trees :=
    mapM_readRecord_subcallValues hheight h.costs
  have hspells : Spells (readField 126) Record.trajectory.fields _
      (trajectory.runId, trajectory.totalSubcalls, trajectory.maxDepth, trajectory.totalTokens,
        trajectory.reread.totalCost, trajectory.totalDurationMs, trajectory.reread.subcalls.trees,
        ()) :=
    .present (readField_text _ trajectory.runId) <|
    .present (readField_word32 _ trajectory.totalSubcalls) <|
    .present (readField_word32 _ trajectory.maxDepth) <|
    .present htokens <|
    .present (readField_real _ h.totalCost) <|
    .present (readField_word64 _ trajectory.totalDurationMs) <|
    .present hsubcalls .nil
  refine (readRecord_of_spells hspells).trans ?_
  change Except.ok (⟨_, _, _, _, _, _, .ofTrees trajectory.reread.subcalls.trees⟩ : Trajectory) = _
  rw [Forest.ofTrees_trees]
  rfl

/-! ## Texts -/

section Spellable

open Json

theorem spellable_textValue (text : String) : Spellable (textValue text) :=
  StringLiteral.spellable_ofText text

theorem spellable_wordValue (n : Nat) : Spellable (wordValue n) :=
  NumberLiteral.spellable_ofNat n

theorem spellable_realValue (x : Float) : Spellable (realValue x) := by
  unfold realValue
  split
  · exact (NumberLiteral.spells_ofFloat x).spellable
  · trivial

theorem spellable_field (key : String) {value : Json} (h : Spellable value) :
    SpellableMember (field key value) :=
  ⟨StringLiteral.spellable_ofText key, h⟩

theorem spellable_optionalField {α : Type} {write : α → Json} (key : String) (value? : Option α)
    (h : ∀ value, Spellable (write value)) :
    ∀ member ∈ optionalField key (value?.map write), SpellableMember member := by
  cases value? with
  | none => exact fun member hmem => absurd hmem List.not_mem_nil
  | some value => simpa [optionalField] using spellable_field key (h value)

theorem spellable_tokensValue (tokens : TokenCounts) : Spellable (tokensValue tokens) := by
  refine spellable_object ?_
  simp [spellable_field, spellable_wordValue]

theorem spellable_toolCallValue (call : ToolCall) : Spellable (toolCallValue call) := by
  refine spellable_object ?_
  simp [spellable_field, spellable_wordValue, spellable_textValue]

theorem spellable_subcallValue (call : Call) {items : List Json}
    (hitems : ∀ item ∈ items, Spellable item) : Spellable (subcallValue call items) := by
  have htools : Spellable (.array (call.toolCalls.map toolCallValue)) :=
    spellable_array (List.forall_mem_map.2 fun tool _ => spellable_toolCallValue tool)
  have hcompleted := spellable_optionalField "completedAt" call.completedAt
    fun t => spellable_textValue t.text
  have herror := spellable_optionalField "error" call.error spellable_textValue
  refine spellable_object ?_
  -- The members are appended in four groups, two of which are those that may be left out.
  simp only [List.forall_mem_append]
  refine ⟨⟨⟨?_, hcompleted⟩, ?_⟩, herror⟩
  · simp [spellable_field, spellable_textValue, spellable_wordValue]
  · simp [spellable_field, spellable_wordValue, spellable_tokensValue, spellable_realValue,
      htools, spellable_array hitems]

/-- The objects of the trees of a forest can be written. -/
theorem spellable_of_mem_subcallValues (forest : Forest Call) :
    ∀ item ∈ subcallValues forest, Spellable item := by
  induction forest with
  | nil => exact fun item hmem => absurd hmem List.not_mem_nil
  | cons call children rest ihc ihr =>
    rw [subcallValues, List.forall_mem_cons]
    exact ⟨spellable_subcallValue call ihc, ihr⟩

theorem spellable_trajectoryValue (trajectory : Trajectory) :
    Spellable (trajectoryValue trajectory) := by
  refine spellable_object ?_
  simp [spellable_field, spellable_wordValue, spellable_textValue, spellable_tokensValue,
    spellable_realValue, spellable_array (spellable_of_mem_subcallValues _)]

end Spellable

/-- A trajectory is read from its text, with its costs read again. -/
theorem read_write {trajectory : Trajectory} (h : Writable trajectory) :
    read (write trajectory) = .ok trajectory.reread := by
  rw [read, write, Json.ofText_text (spellable_trajectoryValue trajectory), readDocument,
    readRecord_trajectoryValue h]
  rfl

end RunTrace.Format
