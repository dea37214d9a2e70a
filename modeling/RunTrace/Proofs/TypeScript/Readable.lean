import RunTrace.Proofs.Format.RoundTrip
import RunTrace.Proofs.TypeScript.Written

/-!
# What is of the declared types is read

The declared types are those of the fields of the records, so a document of the declared type is
read if the numbers, costs and timestamps in it are such that the fields can hold them, and if its
subcalls are not nested too deeply.

## Main results

* `definition?_record`: the properties that are declared for a record are its fields;
* `exists_readRecord_of_inhabits`: a record is read if it is of its type and the records in it are
  read;
* `exists_readRecord_trajectory`: so the document of a trajectory is read.
-/

namespace RunTrace

namespace Format

open TypeScript

/-- The type that is declared for values of a kind. -/
def Kind.type : Kind → Ty
  | text | instant => .string
  | word32 | word64 | real => .number
  | outcome => .reference "Outcome"
  | record of => .reference of.name
  | optional of => .union of.type .null
  | list of => .array (.reference of.name)

/-- Whether values of a kind are declared to be absent at times. -/
def Kind.isOptional : Kind → Bool
  | optional _ => true
  | _ => false

/-- The properties that are declared for a record are its fields: they have the same names in the
same order, and the types of what the fields hold. -/
theorem definition?_record (record : Record) : ∃ properties,
    definition? record.name = some (.object properties) ∧
      properties.map (·.name) = record.fields.map (·.key) ∧
      ∀ field ∈ record.fields, ∃ property ∈ properties, property.name = field.key ∧
        property.type = field.kind.type ∧ property.optional = field.kind.isOptional := by
  cases record <;> exact ⟨_, rfl, rfl, by decide⟩

end Format

namespace TypeScript

open Json Format

/-! ## What is asked of a document -/

/-- A number that is written as a natural number below a bound, without sign, point or exponent. -/
def IsNatural (bound : Nat) (literal : NumberLiteral) : Prop :=
  literal.negative = false ∧ literal.fraction = none ∧ literal.exponent = none ∧
    Decimal.natOfDigits literal.whole < bound

/-- What is asked of the value of a property in addition to its type: numbers that count something
are written as words, costs are such numbers as are allowed, and timestamps are such. -/
structure Admissible (cost : NumberLiteral → Prop) (name : String) (value : Json) : Prop where
  word32 : name ∈ ["depth", "totalSubcalls", "maxDepth"] →
    ∀ literal, value = .number literal → IsNatural UInt32.size literal
  word64 : name ∈ ["durationMs", "totalDurationMs", "input", "output"] →
    ∀ literal, value = .number literal → IsNatural UInt64.size literal
  cost : name ∈ ["cost", "totalCost"] →
    ∀ literal, value = .number literal → cost literal
  timestamp : name ∈ ["startedAt", "completedAt"] →
    ∀ literal text, value = .string literal → literal.read = .ok text →
      ∃ t, Timestamp.read text = .ok t

/-- The rule that properties are admissible, and that nothing breaks off in other members. -/
def readable (cost : NumberLiteral → Prop) : Rule :=
  fun properties members => ∀ entry ∈ entries (.object members),
    if entry.1 ∈ properties.map (·.name) then Admissible cost entry.1 entry.2 else entry.2.Complete

/-- A number that is read as a finite double. -/
def ReadsFinite (literal : NumberLiteral) : Prop :=
  literal.toFloat.isFinite = true

/-- The rule for documents that are read. -/
abbrev accepted : Rule :=
  single.and (readable ReadsFinite)

/-- A subcall in the document of a trajectory, with the number of subcalls that it is nested in. -/
inductive IsNode (document : Json) : Nat → Json → Prop
  | root {items : List Json} {node : Json} (list : ("subcalls", .array items) ∈ document.entries)
      (mem : node ∈ items) : IsNode document 0 node
  | child {depth : Nat} {parent : Json} {items : List Json} {node : Json}
      (above : IsNode document depth parent) (list : ("children", .array items) ∈ parent.entries)
      (mem : node ∈ items) : IsNode document (depth + 1) node

/-! ## Values without members -/

/-- What is asked of the value of a field in addition to its type. -/
def Admits : Kind → Json → Prop
  | .instant, value => ∀ literal text, value = .string literal → literal.read = .ok text →
    ∃ t, Timestamp.read text = .ok t
  | .word32, value => ∀ literal, value = .number literal → IsNatural UInt32.size literal
  | .word64, value => ∀ literal, value = .number literal → IsNatural UInt64.size literal
  | .real, value => ∀ literal, value = .number literal → ReadsFinite literal
  | .optional kind, value => Admits kind value
  | _, _ => True

/-- What is asked of values by their names is what is asked of the values of the fields. -/
theorem admits_of_admissible {record : Record} {field : Field} (hfield : field ∈ record.fields)
    {value : Json} (h : Admissible ReadsFinite field.key value) : Admits field.kind value := by
  obtain ⟨hword32, hword64, hcost, htimestamp⟩ := h
  revert field
  cases record <;> simp only [Record.fields, List.forall_mem_cons] <;> simp [Admits]

theorem exists_readWord {bound : Nat} {literal : NumberLiteral} (h : IsNatural bound literal)
    (hbound : bound ≤ UInt64.size) (expected : Expected) :
    ∃ n, readWord bound expected (.number literal) = .ok n := by
  obtain ⟨hsign, hfraction, hexponent, hlt⟩ := h
  refine ⟨Decimal.natOfDigits literal.whole, ?_⟩
  have hinteger : literal.integer? = some (Decimal.natOfDigits literal.whole : Int) := by
    rw [NumberLiteral.integer?, hfraction, hexponent]
    simp [hsign, Nat.lt_of_lt_of_le hlt hbound]
  rw [readWord, NumberLiteral.read, hinteger]
  simp [liftJson, Except.mapError, bind, Except.bind, hlt, pure, Except.pure]

theorem readReal_of_readsFinite {literal : NumberLiteral} (h : ReadsFinite literal) :
    readReal (.number literal) = .ok literal.toFloat := by
  cases hinteger : literal.integer? with
  | some n =>
    rw [readReal, NumberLiteral.read, hinteger]
    rfl
  | none =>
    rw [readReal, NumberLiteral.read_of_isFinite hinteger h]
    rfl

theorem exists_readOutcome (levels : Nat) {value : Json}
    (typed : Inhabits accepted (.reference "Outcome") value) :
    ∃ outcome, readOutcome levels value = .ok outcome := by
  have hliterals := (inhabits_synonym rfl).1 typed
  simp only [inhabits_union, inhabits_literal] at hliterals
  obtain ⟨outcome, literal, rfl, hread⟩ : ∃ (outcome : Outcome) (literal : StringLiteral),
      value = .string literal ∧ literal.read = .ok outcome.name := by
    rcases hliterals with ⟨literal, hliteral⟩ | ⟨literal, hliteral⟩ | ⟨literal, hliteral⟩
    · exact ⟨.success, literal, hliteral⟩
    · exact ⟨.failure, literal, hliteral⟩
    · exact ⟨.running, literal, hliteral⟩
  refine ⟨outcome, ?_⟩
  rw [readOutcome, hread]
  cases outcome <;> rfl

/-- Whether a kind is of values without members. -/
def isScalar : Kind → Bool
  | .record _ | .list _ => false
  | .optional kind => isScalar kind
  | _ => true

/-- A value without members is read if it is of its type and what is asked of it holds. -/
theorem exists_readField_of_isScalar (levels : Nat) {kind : Kind} (hscalar : isScalar kind = true)
    {value : Json} (typed : Inhabits accepted kind.type value) (admits : Admits kind value) :
    ∃ v, readField levels kind value = .ok v := by
  have htext : ∀ {expected : Expected} {literal : StringLiteral} {text : String},
      literal.read = .ok text → readText expected (.string literal) = .ok text := by
    intro expected literal text hread
    rw [readText, hread]
    rfl
  induction kind with
  | text =>
    obtain ⟨literal, text, rfl, hread⟩ := inhabits_string.1 typed
    exact ⟨text, show readText .text (.string literal) = .ok text from htext hread⟩
  | instant =>
    obtain ⟨literal, text, rfl, hread⟩ := inhabits_string.1 typed
    obtain ⟨t, ht⟩ := admits literal text rfl hread
    refine ⟨t, show (readText .instant (.string literal) >>= fun text =>
      (Timestamp.read text).mapError ReadError.timestamp) = .ok t from ?_⟩
    rw [htext hread]
    exact mapError_eq_ok.2 ht
  | word32 =>
    obtain ⟨literal, rfl⟩ := inhabits_number.1 typed
    obtain ⟨n, hn⟩ := exists_readWord (admits literal rfl) (by decide) .word32
    exact ⟨UInt32.ofNat n, map_eq_ok.2 ⟨n, hn, rfl⟩⟩
  | word64 =>
    obtain ⟨literal, rfl⟩ := inhabits_number.1 typed
    obtain ⟨n, hn⟩ := exists_readWord (admits literal rfl) (Nat.le_refl _) .word64
    exact ⟨UInt64.ofNat n, map_eq_ok.2 ⟨n, hn, rfl⟩⟩
  | real =>
    obtain ⟨literal, rfl⟩ := inhabits_number.1 typed
    exact ⟨literal.toFloat, readReal_of_readsFinite (admits literal rfl)⟩
  | outcome => exact exists_readOutcome levels typed
  | record of => cases hscalar
  | list of => cases hscalar
  | optional kind ih =>
    rcases inhabits_union.1 typed with typed | typed
    · obtain ⟨v, hv⟩ := ih hscalar typed admits
      cases value with
      | null => exact ⟨none, rfl⟩
      | _ => exact ⟨some v, map_eq_ok.2 ⟨v, hv, rfl⟩⟩
    · obtain rfl := inhabits_null.1 typed
      exact ⟨none, rfl⟩

/-- The fields of a record that hold records. -/
def nestedFields (record : Record) : List Field :=
  record.fields.filter fun field => !isScalar field.kind

/-- A record is read if it is of its type and the records in it are read. -/
theorem exists_readRecord_of_inhabits {levels : Nat} {record : Record} {value : Json}
    (typed : Inhabits accepted (.reference record.name) value)
    (nested : ∀ field ∈ nestedFields record, ∀ json, (field.key, json) ∈ value.entries →
      Inhabits accepted field.kind.type json → ∃ v, readField levels field.kind json = .ok v) :
    ∃ v, readRecord (levels + 1) record value = .ok v := by
  obtain ⟨properties, hdefinition, hnames, hfields⟩ := definition?_record record
  cases typed with
  | synonym other => cases other.symm.trans hdefinition
  | @object _ declaredProperties members declared named required ruled typed =>
    obtain ⟨once, ruled⟩ := ruled
    obtain rfl := Definition.object.inj (Option.some.inj (declared.symm.trans hdefinition))
    refine exists_readRecord named ?_ ?_ ?_ ?_
    -- No field is given twice, and none is missing that has no default.
    · intro field hmem
      obtain ⟨property, hproperty, hname, -⟩ := hfields field hmem
      rw [← hname]
      exact once property hproperty
    · intro field hmem
      obtain ⟨property, hproperty, hname, -, hoptional⟩ := hfields field hmem
      cases hkind : field.kind with
      | optional of => exact .inr rfl
      | _ =>
        rw [hkind] at hoptional
        exact .inl (hname ▸ required property hproperty hoptional)
    -- Values without members are read by what is asked of them, all others by assumption.
    · intro field hmem entry hentry hkey
      obtain ⟨property, hproperty, hname, htype, -⟩ := hfields field hmem
      have htyped : Inhabits accepted field.kind.type entry.2 :=
        htype ▸ typed property hproperty entry hentry (hkey.trans hname.symm)
      cases hscalar : isScalar field.kind with
      | false =>
        refine nested field (List.mem_filter.2 ⟨hmem, by rw [hscalar]; rfl⟩) entry.2 ?_ htyped
        rw [← hkey]
        exact hentry
      | true =>
        have hruled := ruled entry hentry
        rw [hnames, hkey, if_pos (List.mem_map_of_mem hmem)] at hruled
        exact exists_readField_of_isScalar levels hscalar htyped (admits_of_admissible hmem hruled)
    -- What has no field is skipped.
    · intro entry hentry hkey
      have hruled := ruled entry hentry
      rw [hnames, if_neg hkey] at hruled
      exact (skip_eq_ok_iff entry.2).2 hruled

theorem exists_readRecord_tokenCounts (levels : Nat) {value : Json}
    (typed : Inhabits accepted (.reference "TokenCounts") value) :
    ∃ v, readRecord (levels + 1) .tokenCounts value = .ok v :=
  exists_readRecord_of_inhabits typed (fun _ hmem => absurd hmem List.not_mem_nil)

theorem exists_readRecord_toolCall (levels : Nat) {value : Json}
    (typed : Inhabits accepted (.reference "ToolCall") value) :
    ∃ v, readRecord (levels + 1) .toolCall value = .ok v :=
  exists_readRecord_of_inhabits typed (fun _ hmem => absurd hmem List.not_mem_nil)

theorem exists_mapM_eq_ok {α β ε : Type} {read : β → Except ε α} {items : List β}
    (h : ∀ item ∈ items, ∃ value, read item = .ok value) :
    ∃ values, items.mapM read = .ok values := by
  induction items with
  | nil => exact ⟨[], rfl⟩
  | cons item items ih =>
    obtain ⟨⟨value, hvalue⟩, hitems⟩ := List.forall_mem_cons.1 h
    obtain ⟨values, hvalues⟩ := ih hitems
    refine ⟨value :: values, ?_⟩
    rw [List.mapM_cons]
    exact bind_eq_ok.2 ⟨value, hvalue, bind_eq_ok.2 ⟨values, hvalues, rfl⟩⟩

/-- A list is read if its items are, one level further in. -/
theorem exists_readField_list {levels : Nat} {record : Record} {value : Json}
    (typed : Inhabits accepted (.array (.reference record.name)) value)
    (reads : ∀ items, value = .array items → ∀ item ∈ items,
      Inhabits accepted (.reference record.name) item →
        ∃ v, readRecord levels record item = .ok v) :
    ∃ v, readField (levels + 1) (.list record) value = .ok v := by
  obtain ⟨items, rfl, hitems⟩ := inhabits_array.1 typed
  obtain ⟨values, hvalues⟩ := exists_mapM_eq_ok fun item hmem =>
    reads items rfl item hmem (hitems item hmem)
  exact ⟨values, hvalues⟩

/-- A subcall is read if its children are, two levels further in. -/
theorem exists_readRecord_subcall_of_children {levels : Nat} {node : Json}
    (typed : Inhabits accepted (.reference "Subcall") node)
    (children : ∀ items, ("children", .array items) ∈ node.entries → ∀ item ∈ items,
      Inhabits accepted (.reference "Subcall") item →
        ∃ v, readRecord (levels + 1) .subcall item = .ok v) :
    ∃ v, readRecord (levels + 3) .subcall node = .ok v := by
  refine exists_readRecord_of_inhabits typed ?_
  have hnested : nestedFields .subcall = [⟨"tokens", .record .tokenCounts⟩,
    ⟨"toolCalls", .list .toolCall⟩, ⟨"children", .list .subcall⟩] := rfl
  simp only [hnested, List.forall_mem_cons, List.not_mem_nil, false_implies, implies_true, and_true]
  -- The tokens take one level below the subcall, the tool calls and the children take two.
  refine ⟨fun json _ htokens => ?_, fun json _ htools => ?_, fun json hentry hchildren => ?_⟩
  · exact exists_readRecord_tokenCounts (levels + 1) htokens
  · exact exists_readField_list htools fun _ _ item _ htool =>
      exists_readRecord_toolCall levels htool
  · refine exists_readField_list hchildren fun items hitems => ?_
    rw [hitems] at hentry
    exact children items hentry

/-- A subcall in a document is read if none is more than 61 levels down. -/
theorem exists_readRecord_subcall {document : Json}
    (deep : ∀ depth node, IsNode document depth node → depth ≤ 61) {above below : Nat}
    (hlevels : above + below = 61) {node : Json} (hnode : IsNode document above node)
    (typed : Inhabits accepted (.reference "Subcall") node) :
    ∃ v, readRecord (2 * below + 3) .subcall node = .ok v := by
  -- The induction is on the levels that may still follow; each takes two levels of the text.
  induction below generalizing above node with
  | zero =>
    refine exists_readRecord_subcall_of_children typed fun items hitems item hmem _ => ?_
    have := deep _ item (hnode.child hitems hmem)
    omega
  | succ below ih =>
    refine exists_readRecord_subcall_of_children typed fun items hitems item hmem htyped => ?_
    exact ih (by omega) (hnode.child hitems hmem) htyped

/-- A document is read that is of its type, if no subcall is more than 61 levels down. -/
theorem exists_readRecord_trajectory {document : Json}
    (typed : Inhabits accepted (.reference "Trajectory") document)
    (deep : ∀ depth node, IsNode document depth node → depth ≤ 61) :
    ∃ trajectory, readRecord nestingLimit .trajectory document = .ok trajectory := by
  refine exists_readRecord_of_inhabits typed ?_
  have hnested : nestedFields .trajectory = [⟨"totalTokens", .record .tokenCounts⟩,
    ⟨"subcalls", .list .subcall⟩] := rfl
  simp only [hnested, List.forall_mem_cons, List.not_mem_nil, false_implies, implies_true, and_true]
  refine ⟨fun json _ htokens => ?_, fun json hentry hsubcalls => ?_⟩
  · exact exists_readRecord_tokenCounts 125 htokens
  · refine exists_readField_list hsubcalls fun items hitems item hmem htyped => ?_
    rw [hitems] at hentry
    exact exists_readRecord_subcall deep (by omega : 0 + 61 = 61) (.root hentry hmem) htyped

end TypeScript

end RunTrace
