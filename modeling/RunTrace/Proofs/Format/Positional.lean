import RunTrace.Proofs.Format.Loaded
import RunTrace.Proofs.Format.Within

/-!
# Records without keys

A record can be written as the array of its values, in the order of its fields and without their
keys. What a field holds anyway has to be written out there, unless nothing but such values is left.
Every record of a document may take this form or the other one, and all of these documents are
loaded as the same trajectory.

## Main results

* `Lists.readItems`: the items of a record are read as the values that its members give;
* `unseen_positional`: so it does not show in which of the two forms a record is;
* `turns_keylessTrajectory`: all records of a document that is written can lose their keys;
* `Trajectory.load_positional`: nor does it in the trajectory that is loaded.
-/

namespace RunTrace

namespace Format

open Json

/-- The items that stand for what is given for fields, in the order of these fields. -/
inductive Lists (given : Field → List Json) : List Field → List Json → Prop
  /-- The value that is given is an item. -/
  | item {field : Field} {fields : List Field} {json : Json} {items : List Json}
      (h : given field = [json]) (rest : Lists given fields items) :
      Lists given (field :: fields) (json :: items)
  /-- Where none is given, the item is blank. -/
  | blank {field : Field} {fields : List Field} {json : Json} {items : List Json}
      (h : given field = []) (hblank : field.kind.blank? = some json)
      (rest : Lists given fields items) : Lists given (field :: fields) (json :: items)
  /-- The last items may be left out if all of them are blank. -/
  | leftOut {fields : List Field} (h : ∀ field ∈ fields, ∃ json,
      field.kind.blank? = some json ∧ (given field = [] ∨ given field = [json])) :
      Lists given fields []

/-- The object of a record is replaced by the array of its values. -/
inductive Positional (record : Record) : Json → Json → Prop
  | mk {members : List Member} {items : List Json}
      (h : Lists (givenBy members) record.fields items) :
      Positional record (.object members) (.array items)

section

variable {levels : Nat} {given : Field → List Json} {fields : List Field}

/-- The values of fields of which the items are left out are the defaults. -/
theorem readItems_nil {values : Values fields}
    (hvalues : Values.Given (readField levels) given fields values)
    (h : ∀ field ∈ fields, ∃ json,
      field.kind.blank? = some json ∧ (given field = [] ∨ given field = [json]))
    (record : Record) (position : Nat) :
    Values.readItems (readField levels) record position fields [] = .ok (values, []) := by
  induction fields generalizing position with
  | nil => rfl
  | cons field fields ih =>
    obtain ⟨value, values⟩ := values
    obtain ⟨⟨json, hblank, hgiven⟩, hfields⟩ := List.forall_mem_cons.1 h
    have hdefault : field.kind.default? = some value := by
      have hvalue := hvalues.1
      rcases hgiven with hgiven | hgiven
      · rw [hgiven] at hvalue
        exact hvalue
      · rw [hgiven] at hvalue
        exact default?_of_readField_blank hblank hvalue
    simp only [Values.readItems, hdefault]
    exact bind_eq_ok.2 ⟨(values, []), ih hvalues.2 hfields (position + 1), rfl⟩

/-- The items of a record are read as the values that are given for its fields. -/
theorem Lists.readItems {items : List Json} {values : Values fields}
    (h : Lists given fields items)
    (hvalues : Values.Given (readField levels) given fields values)
    (hlevels : ∀ field ∈ fields, field.kind.blank?.isSome = true → 0 < levels)
    (record : Record) (position : Nat) :
    Values.readItems (readField levels) record position fields items = .ok (values, []) := by
  -- The induction follows the items; where they end, only fields are left that are blank.
  induction h generalizing position with
  | leftOut h => exact readItems_nil hvalues h record position
  | item hgiven _ ih =>
    obtain ⟨value, values⟩ := values
    obtain ⟨-, hmore⟩ := List.forall_mem_cons.1 hlevels
    have hvalue := hvalues.1
    rw [hgiven] at hvalue
    exact bind_eq_ok.2 ⟨value, hvalue,
      bind_eq_ok.2 ⟨(values, []), ih hvalues.2 hmore (position + 1), rfl⟩⟩
  | blank hgiven hblank _ ih =>
    obtain ⟨value, values⟩ := values
    obtain ⟨hfirst, hmore⟩ := List.forall_mem_cons.1 hlevels
    have hdefault := hvalues.1
    rw [hgiven] at hdefault
    have hpos := hfirst (Option.isSome_iff_exists.2 ⟨_, hblank⟩)
    exact bind_eq_ok.2 ⟨value, readField_blank hblank hpos hdefault,
      bind_eq_ok.2 ⟨(values, []), ih hvalues.2 hmore (position + 1), rfl⟩⟩

end

/-- Where a record is read, it does not show whether it has keys. -/
theorem unseen_positional : Unseen Positional := by
  rintro levels record _ _ ⟨hlists⟩ value hread
  obtain ⟨levels, rfl, -⟩ := readRecord_eq_ok hread
  obtain ⟨-, values, hvalues, hmake⟩ := readRecord_object_iff.1 hread
  -- The items are read as the values that the members give, and none of them is left.
  have hitems := hlists.readItems hvalues (fun field => pos_of_readRecord hread) record 0
  rw [readRecord_succ]
  refine bind_eq_ok.2 ⟨(values, []), hitems, bind_eq_ok.2 ⟨(), rfl, ?_⟩⟩
  exact congrArg Except.ok hmake

/-! ## Documents without keys -/

/-- The items of an array are the values of the members of an object, in the order of the fields,
after something was done to them, with blank items for the fields without a member. -/
inductive Columns (turns : Kind → Json → Json → Prop) : List Field → List Member → List Json → Prop
  | nil : Columns turns [] [] []
  | member {field : Field} {fields : List Field} {json json' : Json} {members : List Member}
      {items : List Json} (h : turns field.kind json json')
      (rest : Columns turns fields members items) :
      Columns turns (field :: fields) (Format.field field.key json :: members) (json' :: items)
  | blank {field : Field} {fields : List Field} {json : Json} {members : List Member}
      {items : List Json} (hblank : field.kind.blank? = some json)
      (rest : Columns turns fields members items) :
      Columns turns (field :: fields) members (json :: items)

/-- An optional field has a member, or its item is blank. -/
theorem Columns.optional {turns : Kind → Json → Json → Prop} {fields : List Field}
    {members : List Member} {items : List Json} {key : String} (kind : Kind) (value? : Option Json)
    (h : ∀ value, turns (.optional kind) value value) (rest : Columns turns fields members items) :
    Columns turns (⟨key, .optional kind⟩ :: fields) (optionalField key value? ++ members)
      (value?.getD .null :: items) := by
  cases value? with
  | none => exact .blank rfl rest
  | some value => exact .member (h value) rest

theorem Lists.congr {given other : Field → List Json} {fields : List Field} {items : List Json}
    (h : Lists given fields items) (hgiven : ∀ field ∈ fields, given field = other field) :
    Lists other fields items := by
  induction h with
  | item h _ ih =>
    obtain ⟨hfirst, hmore⟩ := List.forall_mem_cons.1 hgiven
    exact .item (hfirst ▸ h) (ih hmore)
  | blank h hblank _ ih =>
    obtain ⟨hfirst, hmore⟩ := List.forall_mem_cons.1 hgiven
    exact .blank (hfirst ▸ h) hblank (ih hmore)
  | leftOut h =>
    refine .leftOut fun field hmem => ?_
    obtain ⟨json, hblank, hjson⟩ := h field hmem
    exact ⟨json, hblank, hgiven field hmem ▸ hjson⟩

section

variable {fields : List Field} {members : List Member} {items : List Json}

/-- The members are those of some of the fields. -/
theorem Columns.givenBy_eq_nil {turns : Kind → Json → Json → Prop}
    (h : Columns turns fields members items) {field : Field}
    (hkey : field.key ∉ fields.map (·.key)) : givenBy members field = [] := by
  induction h with
  | nil => rfl
  | member _ _ ih =>
    rw [List.map_cons, List.mem_cons, not_or] at hkey
    rw [givenBy_cons (pair?_field _ _), valuesIn_singleton_of_ne (Ne.symm hkey.1), ih hkey.2]
    rfl
  | blank _ _ ih => exact ih fun hmem => hkey (List.mem_cons_of_mem _ hmem)

/-- The values of members in the order of the fields make up the items of a record. -/
theorem Columns.lists (hkeys : (fields.map (·.key)).Nodup)
    (h : Columns (fun _ => Eq) fields members items) : Lists (givenBy members) fields items := by
  induction h with
  | nil => exact .leftOut (List.forall_mem_nil _)
  | @member field fields json json' members items hjson rest ih =>
    obtain ⟨hkey, hkeys⟩ := List.nodup_cons.1 hkeys
    have hcons : ∀ other, givenBy (Format.field field.key json :: members) other =
        valuesIn [(field.key, json)] other ++ givenBy members other :=
      givenBy_cons (pair?_field field.key json)
    refine .item ?_ ((ih hkeys).congr fun other hother => ?_)
    · rw [hcons, valuesIn_singleton rfl, rest.givenBy_eq_nil hkey, hjson]
      rfl
    -- The other fields have other keys.
    · have hne : field.key ≠ other.key :=
        fun heq => hkey (List.mem_map.2 ⟨other, hother, heq.symm⟩)
      rw [hcons, valuesIn_singleton_of_ne hne]
      rfl
  | blank hblank rest ih =>
    obtain ⟨hkey, hkeys⟩ := List.nodup_cons.1 hkeys
    exact .blank (rest.givenBy_eq_nil hkey) hblank (ih hkeys)

end

/-- Any number of records in a value are replaced by their values without keys. -/
def Turns (kind : Kind) : Json → Json → Prop :=
  Relation.ReflTransGen (Within Positional kind)

/-- The values of all members of an object can be changed one after the other. -/
theorem Columns.exists_members {record : Record} {fields : List Field} {members : List Member}
    {items : List Json} (h : Columns Turns fields members items)
    (hfields : ∀ field ∈ fields, field ∈ record.fields) (above : List Member) :
    ∃ members', Turns (.record record) (.object (above ++ members)) (.object (above ++ members')) ∧
      Columns (fun _ => Eq) fields members' items := by
  induction h generalizing above with
  | nil => exact ⟨[], .refl, .nil⟩
  | @member field fields json json' members items hjson _ ih =>
    obtain ⟨hfield, hfields⟩ := List.forall_mem_cons.1 hfields
    obtain ⟨members', hmembers, hcolumns⟩ := ih hfields (above ++ [Format.field field.key json'])
    rw [List.append_assoc, List.append_assoc] at hmembers
    -- The first value is changed while the others are still as they were.
    have hfirst : Turns (.record record) (.object (above ++ Format.field field.key json :: members))
        (.object (above ++ Format.field field.key json' :: members)) :=
      hjson.lift (fun value => Json.object (above ++ Format.field field.key value :: members))
        fun _ _ step => .member (StringLiteral.read_ofText field.key) hfield step
    exact ⟨Format.field field.key json' :: members', hfirst.trans hmembers, .member rfl hcolumns⟩
  | blank hblank _ ih =>
    obtain ⟨members', hmembers, hcolumns⟩ := ih (fun field hmem =>
      hfields field (List.mem_cons_of_mem _ hmem)) above
    exact ⟨members', hmembers, .blank hblank hcolumns⟩

/-- A record loses its keys after the records in it. -/
theorem Columns.turns {record : Record} {members : List Member} {items : List Json}
    (h : Columns Turns record.fields members items) :
    Turns (.record record) (.object members) (.array items) := by
  obtain ⟨members', hmembers, hcolumns⟩ := h.exists_members (fun _ => id) []
  exact hmembers.tail (.here ⟨hcolumns.lists record.nodup_keys⟩)

/-- The records of a list are changed one after the other. -/
theorem turns_list {record : Record} {items items' : List Json}
    (h : List.Forall₂ (Turns (.record record)) items items') (above : List Json) :
    Turns (.list record) (.array (above ++ items)) (.array (above ++ items')) := by
  induction h generalizing above with
  | nil => exact .refl
  | @cons json json' items items' hjson _ ih =>
    have hmore := ih (above ++ [json'])
    rw [List.append_assoc, List.append_assoc] at hmore
    have hfirst : Turns (.list record) (.array (above ++ json :: items))
        (.array (above ++ json' :: items)) :=
      hjson.lift (fun value => Json.array (above ++ value :: items)) fun _ _ step => .entry step
    exact hfirst.trans hmore

/-- Token counts without keys. -/
def keylessTokens (tokens : TokenCounts) : Json :=
  .array [wordValue tokens.input.toNat, wordValue tokens.output.toNat]

/-- A tool call without keys. -/
def keylessToolCall (call : ToolCall) : Json :=
  .array [textValue call.id, textValue call.name, textValue call.outcome.name,
    wordValue call.durationMs.toNat]

/-- A subcall without keys, given its children; an instant of completion or an error that is absent
is written out as null. -/
def keylessSubcall (call : Call) (children : List Json) : Json :=
  .array [textValue call.id, wordValue call.depth.toNat, textValue call.name,
    textValue call.outcome.name, textValue call.startedAt.text,
    (call.completedAt.map fun t => textValue t.text).getD .null, wordValue call.durationMs.toNat,
    keylessTokens call.tokens, realValue call.cost, .array (call.toolCalls.map keylessToolCall),
    .array children, (call.error.map textValue).getD .null]

/-- The subcalls of a forest without keys. -/
def keylessSubcalls : Forest Call → List Json
  | .nil => []
  | .cons call children rest =>
    keylessSubcall call (keylessSubcalls children) :: keylessSubcalls rest

/-- A trajectory in which no record has keys. -/
def keylessTrajectory (trajectory : Trajectory) : Json :=
  .array [textValue trajectory.runId, wordValue trajectory.totalSubcalls.toNat,
    wordValue trajectory.maxDepth.toNat, keylessTokens trajectory.totalTokens,
    realValue trajectory.totalCost, wordValue trajectory.totalDurationMs.toNat,
    .array (keylessSubcalls trajectory.subcalls)]

theorem turns_keylessTokens (tokens : TokenCounts) :
    Turns (.record .tokenCounts) (tokensValue tokens) (keylessTokens tokens) :=
  Columns.turns (.member .refl (.member .refl .nil))

theorem turns_keylessToolCall (call : ToolCall) :
    Turns (.record .toolCall) (toolCallValue call) (keylessToolCall call) :=
  Columns.turns (.member .refl (.member .refl (.member .refl (.member .refl .nil))))

theorem turns_keylessSubcall (call : Call) {children children' : List Json}
    (h : List.Forall₂ (Turns (.record .subcall)) children children') :
    Turns (.record .subcall) (subcallValue call children) (keylessSubcall call children') := by
  have htools : Turns (.list .toolCall) (.array (call.toolCalls.map toolCallValue))
      (.array (call.toolCalls.map keylessToolCall)) := by
    refine turns_list ?_ []
    rw [List.forall₂_map_left_iff, List.forall₂_map_right_iff, List.forall₂_same]
    exact fun tool _ => turns_keylessToolCall tool
  -- The error is the last member, if there is one.
  have herror : Columns Turns [⟨"error", .optional .text⟩]
      (optionalField "error" (call.error.map textValue) ++ []) _ :=
    .optional .text _ (fun _ => .refl) .nil
  rw [List.append_nil] at herror
  simp only [subcallValue, List.append_assoc, List.cons_append, List.nil_append]
  exact Columns.turns <|
    .member .refl <| .member .refl <| .member .refl <| .member .refl <| .member .refl <|
    .optional .instant _ (fun _ => .refl) <|
    .member .refl <| .member (turns_keylessTokens call.tokens) <| .member .refl <|
    .member htools <| .member (turns_list h []) herror

theorem turns_keylessSubcalls (forest : Forest Call) :
    List.Forall₂ (Turns (.record .subcall)) (subcallValues forest) (keylessSubcalls forest) := by
  induction forest with
  | nil => exact .nil
  | cons call children rest ihc ihr => exact .cons (turns_keylessSubcall call ihc) ihr

/-- All records of a document that is written can lose their keys. -/
theorem turns_keylessTrajectory (trajectory : Trajectory) :
    Turns (.record .trajectory) (trajectoryValue trajectory) (keylessTrajectory trajectory) :=
  Columns.turns <|
    .member .refl <| .member .refl <| .member .refl <|
    .member (turns_keylessTokens trajectory.totalTokens) <| .member .refl <| .member .refl <|
    .member (turns_list (turns_keylessSubcalls trajectory.subcalls) []) .nil

section Spellable

theorem spellable_getD_null {value? : Option Json} (h : ∀ value ∈ value?, Spellable value) :
    Spellable (value?.getD .null) := by
  cases value? with
  | none => trivial
  | some value => exact h value rfl

theorem spellable_keylessTokens (tokens : TokenCounts) : Spellable (keylessTokens tokens) :=
  spellable_array (by simp [spellable_wordValue])

theorem spellable_keylessToolCall (call : ToolCall) : Spellable (keylessToolCall call) :=
  spellable_array (by simp [spellable_wordValue, spellable_textValue])

theorem spellable_keylessSubcall (call : Call) {children : List Json}
    (h : ∀ item ∈ children, Spellable item) : Spellable (keylessSubcall call children) := by
  have htools : Spellable (.array (call.toolCalls.map keylessToolCall)) :=
    spellable_array (List.forall_mem_map.2 fun tool _ => spellable_keylessToolCall tool)
  have hcompleted : Spellable ((call.completedAt.map fun t => textValue t.text).getD .null) :=
    spellable_getD_null (by simp [spellable_textValue])
  have herror : Spellable ((call.error.map textValue).getD .null) :=
    spellable_getD_null (by simp [spellable_textValue])
  refine spellable_array ?_
  simp [spellable_wordValue, spellable_textValue, spellable_keylessTokens, spellable_realValue,
    htools, hcompleted, herror, spellable_array h]

theorem spellable_of_mem_keylessSubcalls (forest : Forest Call) :
    ∀ item ∈ keylessSubcalls forest, Spellable item := by
  induction forest with
  | nil => exact fun item hmem => absurd hmem List.not_mem_nil
  | cons call children rest ihc ihr =>
    rw [keylessSubcalls, List.forall_mem_cons]
    exact ⟨spellable_keylessSubcall call ihc, ihr⟩

theorem spellable_keylessTrajectory (trajectory : Trajectory) :
    Spellable (keylessTrajectory trajectory) := by
  refine spellable_array ?_
  simp [spellable_wordValue, spellable_textValue, spellable_keylessTokens, spellable_realValue,
    spellable_array (spellable_of_mem_keylessSubcalls _)]

end Spellable

end Format

open Format

/-- A text that is loaded spells exactly one document, and when any number of records in this
document are replaced by their values without keys, all texts that the resulting document has are
loaded as the same trajectory. -/
theorem Trajectory.load_positional {text : String} {trajectory : Trajectory}
    (h : Trajectory.load text = .ok trajectory) :
    (∃! document : Json, document.SpelledBy text.toList) ∧
      ∀ (document document' : Json) (text' : String), document.SpelledBy text.toList →
        Relation.ReflTransGen (Within Positional (.record .trajectory)) document document' →
        document'.SpelledBy text'.toList → Trajectory.load text' = .ok trajectory := by
  refine ⟨existsUnique_document h, fun document document' text' hspelled steps hspelled' => ?_⟩
  obtain ⟨⟨read, hread, hrecord⟩, hvalid⟩ := load_eq_ok_iff.1 h
  obtain rfl := hread.eq hspelled
  exact load_eq_ok_iff.2
    ⟨⟨document', hspelled', readsAs_of_reflTransGen unseen_positional steps _ hrecord⟩, hvalid⟩

/-- A run with a subcall that is still running. It has made a tool call, and below it there is
another subcall. -/
def Format.runningTrajectory : Trajectory :=
  let root : Call :=
    { DemoTrajectory.call "root" "run" 0 0 5 3 4 0 with
      outcome := .running
      completedAt := none
      toolCalls := [⟨"read", "file_read", .running, 2⟩] }
  { runId := "bare", totalSubcalls := 2, maxDepth := 1, totalTokens := ⟨4, 5⟩, totalCost := 0
    totalDurationMs := 5
    subcalls := .cons root (.cons (DemoTrajectory.call "leaf" "step" 1 1 2 1 1 0) .nil .nil) .nil }

/-- The run is loaded from its values alone. Its first subcall has null for the instant at which it
was completed. -/
theorem Trajectory.load_positional_bare :
    let tool : Json :=
      .array [textValue "read", textValue "file_read", textValue "running", wordValue 2]
    let leaf : Json :=
      .array [textValue "leaf", wordValue 1, textValue "step", textValue "success",
        textValue "2026-02-20T10:00:00.001Z", textValue "2026-02-20T10:00:00.003Z", wordValue 2,
        .array [wordValue 1, wordValue 1], realValue 0, .array [], .array [], .null]
    let root : Json :=
      .array [textValue "root", wordValue 0, textValue "run", textValue "running",
        textValue "2026-02-20T10:00:00Z", .null, wordValue 5, .array [wordValue 3, wordValue 4],
        realValue 0, .array [tool], .array [leaf], .null]
    let document : Json :=
      .array [textValue "bare", wordValue 2, wordValue 1, .array [wordValue 4, wordValue 5],
        realValue 0, wordValue 5, .array [root]]
    Trajectory.load (write runningTrajectory) = .ok runningTrajectory ∧
      Relation.ReflTransGen (Within Positional (.record .trajectory))
        (trajectoryValue runningTrajectory) document ∧
      Trajectory.load document.text = .ok runningTrajectory := by
  intro tool leaf root document
  have hvalid : runningTrajectory.validate = .ok () := by decide +kernel
  have htotal : runningTrajectory.totalCost.isFinite = true := by decide +kernel
  have hheight : runningTrajectory.subcalls.height ≤ maxHeight := by decide +kernel
  have hcosts : ∀ cost ∈ runningTrajectory.costs, ReadsBack cost := by decide +kernel
  have hload := load_of_readsBack hvalid htotal hheight hcosts
  -- The texts of the instants and the zeros are all that has to be computed.
  have hkeyless : keylessTrajectory runningTrajectory = document := by
    have hstarted : (DemoTrajectory.moment 1).text = "2026-02-20T10:00:00.001Z" := by decide +kernel
    have hended : (DemoTrajectory.moment 3).text = "2026-02-20T10:00:00.003Z" := by decide +kernel
    have hroot : (DemoTrajectory.moment 0).text = "2026-02-20T10:00:00Z" := by decide +kernel
    have hcost : Decimal.toFloat ⟨0, -3⟩ = 0 := by decide +kernel
    simp [keylessTrajectory, keylessSubcalls, keylessSubcall, runningTrajectory,
      DemoTrajectory.call, hstarted, hended, hroot, hcost, keylessTokens, keylessToolCall, document,
      root, leaf, tool, Outcome.name]
  have hsteps := turns_keylessTrajectory runningTrajectory
  have hspellable := spellable_keylessTrajectory runningTrajectory
  rw [hkeyless] at hsteps hspellable
  refine ⟨hload, hsteps, (Trajectory.load_positional hload).2 _ _ _ ?_ hsteps ?_⟩
  · exact Json.spelledBy_text (spellable_trajectoryValue runningTrajectory)
  · exact Json.spelledBy_text hspellable

end RunTrace
