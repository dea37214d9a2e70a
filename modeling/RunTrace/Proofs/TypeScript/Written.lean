import RunTrace.Proofs.Format.Records
import RunTrace.Proofs.TypeScript.Inhabits

/-!
# What is written is of the declared types

The objects that are written for the records of a trajectory have the declared types, to the letter:
they have no members that are not declared, and no member is null.

## Main results

* `inhabits_subcallValue`, `inhabits_subcallValues`: the object of a subcall is of its type if those
  of its children are, and so are all objects of a forest;
* `inhabits_trajectoryValue`: the document of a trajectory is of its type.
-/

namespace RunTrace.TypeScript

open Json Format

/-- The rule that all members are declared, none is given twice and none is null. -/
def exact : Rule :=
  single.and fun properties members =>
    ∀ entry ∈ entries (.object members), entry.1 ∈ properties.map (·.name) ∧ entry.2 ≠ .null

variable {rule : Rule}

/-! ## Values without members -/

theorem textValue_ne_null (text : String) : textValue text ≠ .null := by
  simp [textValue]

theorem wordValue_ne_null (n : Nat) : wordValue n ≠ .null := by
  simp [wordValue]

theorem tokensValue_ne_null (tokens : TokenCounts) : tokensValue tokens ≠ .null := by
  simp [tokensValue]

theorem array_ne_null (items : List Json) : Json.array items ≠ .null := by
  simp

theorem inhabits_textValue (text : String) : Inhabits rule .string (textValue text) :=
  .string (StringLiteral.read_ofText text)

theorem inhabits_wordValue (n : Nat) : Inhabits rule .number (wordValue n) :=
  .number _

/-- A double that is finite is written as a number. -/
theorem inhabits_realValue (rule : Rule) {x : Float} (h : x.isFinite = true) :
    Inhabits rule .number (realValue x) ∧ realValue x ≠ .null := by
  rw [realValue, if_pos h]
  exact ⟨.number _, by simp⟩

theorem inhabits_outcomeName (outcome : Outcome) :
    Inhabits rule (.reference "Outcome") (textValue outcome.name) := by
  have hliteral : Inhabits rule (.literal outcome.name) (textValue outcome.name) :=
    .literal (StringLiteral.read_ofText outcome.name)
  refine .synonym rfl ?_
  cases outcome with
  | success => exact .left hliteral
  | failure => exact .right (.left hliteral)
  | running => exact .right (.right hliteral)

/-- The members of an object are properties in the order in which they are declared, and none of
them is null. -/
abbrev FillsExactly : List Property → List Member → Prop :=
  Fills exact fun _ value => value ≠ .null

/-- A text that may be absent has its member or none. -/
theorem FillsExactly.optional {α : Type} {properties : List Property} {members : List Member}
    {name : String} {comment : List String} {write : α → String} (value? : Option α)
    (rest : FillsExactly properties members) :
    FillsExactly (⟨name, .union .string .null, true, comment⟩ :: properties)
      (optionalField name (value?.map fun value => textValue (write value)) ++ members) := by
  cases value? with
  | none => exact .absent rfl rest
  | some value => exact .present (.left (inhabits_textValue _)) (textValue_ne_null _) rest

/-! ## Records -/

/-- An object of the properties of a declared type, in their order and without null, is of this type
to the letter. -/
theorem inhabits_of_fills {name : String} {properties : List Property} {members : List Member}
    (declared : definition? name = some (.object properties))
    (distinct : (properties.map (·.name)).Nodup)
    (h : FillsExactly properties members) :
    Inhabits exact (.reference name) (.object members) :=
  .of_fills declared distinct (fun hsingle hentries => ⟨hsingle, hentries⟩) h

theorem inhabits_tokensValue (tokens : TokenCounts) :
    Inhabits exact (.reference "TokenCounts") (tokensValue tokens) :=
  inhabits_of_fills rfl (by decide) <|
    .present (inhabits_wordValue _) (wordValue_ne_null _) <|
    .present (inhabits_wordValue _) (wordValue_ne_null _) .nil

theorem inhabits_toolCallValue (call : ToolCall) :
    Inhabits exact (.reference "ToolCall") (toolCallValue call) :=
  inhabits_of_fills rfl (by decide) <|
    .present (inhabits_textValue _) (textValue_ne_null _) <|
    .present (inhabits_textValue _) (textValue_ne_null _) <|
    .present (inhabits_outcomeName _) (textValue_ne_null _) <|
    .present (inhabits_wordValue _) (wordValue_ne_null _) .nil

/-- The object of a subcall is of its type if those of its children are. -/
theorem inhabits_subcallValue {call : Call} {items : List Json}
    (hcost : call.cost.isFinite = true)
    (hitems : ∀ item ∈ items, Inhabits exact (.reference "Subcall") item) :
    Inhabits exact (.reference "Subcall") (subcallValue call items) := by
  obtain ⟨hreal, hne⟩ := inhabits_realValue exact hcost
  have htools : Inhabits exact (.array (.reference "ToolCall"))
      (.array (call.toolCalls.map toolCallValue)) :=
    .array (List.forall_mem_map.2 fun tool _ => inhabits_toolCallValue tool)
  have herror : ∀ comment, FillsExactly [⟨"error", .union .string .null, true, comment⟩]
      (optionalField "error" (call.error.map textValue)) := by
    intro comment
    rw [← List.append_nil (optionalField _ _)]
    exact FillsExactly.optional call.error .nil
  simp only [subcallValue, List.append_assoc, List.cons_append, List.nil_append]
  exact inhabits_of_fills rfl (by decide) <|
    .present (inhabits_textValue _) (textValue_ne_null _) <|
    .present (inhabits_wordValue _) (wordValue_ne_null _) <|
    .present (inhabits_textValue _) (textValue_ne_null _) <|
    .present (inhabits_outcomeName _) (textValue_ne_null _) <|
    .present (inhabits_textValue _) (textValue_ne_null _) <|
    FillsExactly.optional call.completedAt <|
    .present (inhabits_wordValue _) (wordValue_ne_null _) <|
    .present (inhabits_tokensValue _) (tokensValue_ne_null _) <|
    .present hreal hne <|
    .present htools (array_ne_null _) <|
    .present (.array hitems) (array_ne_null _) (herror _)

/-- The objects of the trees of a forest are of the type of subcalls. -/
theorem inhabits_subcallValues {forest : Forest Call}
    (hcosts : ∀ call ∈ forest.toList, call.cost.isFinite = true) :
    ∀ item ∈ subcallValues forest, Inhabits exact (.reference "Subcall") item := by
  induction forest with
  | nil => exact fun item hmem => absurd hmem List.not_mem_nil
  | cons call children rest ihc ihr =>
    simp only [Forest.toList, List.forall_mem_cons, List.forall_mem_append] at hcosts
    obtain ⟨hcost, hbelow, hbehind⟩ := hcosts
    exact List.forall_mem_cons.2 ⟨inhabits_subcallValue hcost (ihc hbelow), ihr hbehind⟩

/-- The document of a trajectory whose costs are finite is of its type. -/
theorem inhabits_trajectoryValue {trajectory : Trajectory}
    (htotal : trajectory.totalCost.isFinite = true)
    (hcosts : ∀ call ∈ trajectory.subcalls.toList, call.cost.isFinite = true) :
    Inhabits exact (.reference "Trajectory") (trajectoryValue trajectory) := by
  obtain ⟨hreal, hne⟩ := inhabits_realValue exact htotal
  exact inhabits_of_fills rfl (by decide) <|
    .present (inhabits_textValue _) (textValue_ne_null _) <|
    .present (inhabits_wordValue _) (wordValue_ne_null _) <|
    .present (inhabits_wordValue _) (wordValue_ne_null _) <|
    .present (inhabits_tokensValue _) (tokensValue_ne_null _) <|
    .present hreal hne <|
    .present (inhabits_wordValue _) (wordValue_ne_null _) <|
    .present (.array (inhabits_subcallValues hcosts)) (array_ne_null _) .nil

end RunTrace.TypeScript
