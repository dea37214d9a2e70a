import RunTrace.TypeScript
import RunTrace.Proofs.Format.Members

/-!
# Documents of declared types

Which JSON values the declared types have. The types say what the declared properties hold, and
nothing of the other members that an object may have, of their order and number, or of the numbers
and strings that a program can work with; a rule for the members of objects says what else is asked
of them.

## Main results

* `Inhabits.of_fills`: an object that has the properties of a declared type in their order is of
  that type.
-/

namespace RunTrace

namespace TypeScript

open Json

/-- What a name is declared to be. -/
def definition? (name : String) : Option Definition :=
  (declaration? name).map (·.definition)

/-- What is asked of the members of an object with the given properties. -/
abbrev Rule : Type :=
  List Property → List Member → Prop

/-- The rule that two other rules are kept. -/
def Rule.and (rule other : Rule) : Rule :=
  fun properties members => rule properties members ∧ other properties members

/-- The rule that no property is given twice. -/
def single : Rule :=
  fun properties members =>
    ∀ property ∈ properties, (names (.object members)).count property.name ≤ 1

/-- A JSON value has a type, and the members of all objects in it that have declared types keep to a
rule. An object has any members in any order. -/
inductive Inhabits (rule : Rule) : Ty → Json → Prop
  | string {literal : StringLiteral} {text : String} (read : literal.read = .ok text) :
    Inhabits rule .string (.string literal)
  | number (literal : NumberLiteral) : Inhabits rule .number (.number literal)
  | null : Inhabits rule .null .null
  | literal {literal : StringLiteral} {value : String} (read : literal.read = .ok value) :
    Inhabits rule (.literal value) (.string literal)
  | left {left right : Ty} {json : Json} (typed : Inhabits rule left json) :
    Inhabits rule (.union left right) json
  | right {left right : Ty} {json : Json} (typed : Inhabits rule right json) :
    Inhabits rule (.union left right) json
  | array {item : Ty} {items : List Json} (typed : ∀ json ∈ items, Inhabits rule item json) :
    Inhabits rule (.array item) (.array items)
  | synonym {name : String} {type : Ty} {json : Json}
      (declared : definition? name = some (.synonym type)) (typed : Inhabits rule type json) :
    Inhabits rule (.reference name) json
  | object {name : String} {properties : List Property} {members : List Member}
      (declared : definition? name = some (.object properties))
      (named : ∀ member ∈ members, member.pair?.isSome)
      (required : ∀ property ∈ properties, property.optional = false →
        property.name ∈ names (.object members))
      (ruled : rule properties members)
      (typed : ∀ property ∈ properties, ∀ entry ∈ entries (.object members),
        entry.1 = property.name → Inhabits rule property.type entry.2) :
    Inhabits rule (.reference name) (.object members)

/-- A value that keeps to a rule keeps to every other one that follows from it. -/
theorem Inhabits.mono {rule other : Rule} {type : Ty} {json : Json}
    (h : ∀ properties members, rule properties members → other properties members)
    (typed : Inhabits rule type json) : Inhabits other type json := by
  induction typed with
  | string read => exact .string read
  | number literal => exact .number literal
  | null => exact .null
  | literal read => exact .literal read
  | left _ ih => exact .left ih
  | right _ ih => exact .right ih
  | array _ ih => exact .array ih
  | synonym declared _ ih => exact .synonym declared ih
  | object declared named required ruled _ ih =>
    exact .object declared named required (h _ _ ruled) ih

section Types

variable {rule : Rule} {json : Json}

theorem inhabits_string : Inhabits rule .string json ↔
    ∃ literal text, json = .string literal ∧ literal.read = .ok text := by
  constructor
  · intro h
    cases h with
    | string read => exact ⟨_, _, rfl, read⟩
  · rintro ⟨literal, text, rfl, read⟩
    exact .string read

theorem inhabits_number : Inhabits rule .number json ↔ ∃ literal, json = .number literal := by
  constructor
  · intro h
    cases h with
    | number literal => exact ⟨literal, rfl⟩
  · rintro ⟨literal, rfl⟩
    exact .number literal

theorem inhabits_null : Inhabits rule .null json ↔ json = .null := by
  constructor
  · rintro ⟨⟩
    rfl
  · rintro rfl
    exact .null

theorem inhabits_literal {value : String} : Inhabits rule (.literal value) json ↔
    ∃ literal, json = .string literal ∧ literal.read = .ok value := by
  constructor
  · intro h
    cases h with
    | literal read => exact ⟨_, rfl, read⟩
  · rintro ⟨literal, rfl, read⟩
    exact .literal read

theorem inhabits_union {left right : Ty} : Inhabits rule (.union left right) json ↔
    Inhabits rule left json ∨ Inhabits rule right json := by
  constructor
  · intro h
    cases h with
    | left typed => exact .inl typed
    | right typed => exact .inr typed
  · rintro (typed | typed)
    · exact .left typed
    · exact .right typed

theorem inhabits_array {item : Ty} : Inhabits rule (.array item) json ↔
    ∃ items, json = .array items ∧ ∀ value ∈ items, Inhabits rule item value := by
  constructor
  · intro h
    cases h with
    | array typed => exact ⟨_, rfl, typed⟩
  · rintro ⟨items, rfl, typed⟩
    exact .array typed

/-- What has a type by its name has the type that is declared by this name. -/
theorem inhabits_synonym {name : String} {type : Ty}
    (declared : definition? name = some (.synonym type)) :
    Inhabits rule (.reference name) json ↔ Inhabits rule type json := by
  refine ⟨fun h => ?_, .synonym declared⟩
  cases h with
  | synonym other typed =>
    obtain rfl := Definition.synonym.inj (Option.some.inj (other.symm.trans declared))
    exact typed
  | object other => cases other.symm.trans declared

end Types

/-! ## Objects in order -/

section Fills

variable (rule : Rule) (keeps : String → Json → Prop)

/-- The members of an object are properties in the order in which they are declared, where those
that may be absent can be left out. -/
inductive Fills : List Property → List Member → Prop
  | nil : Fills [] []
  | present {property : Property} {properties : List Property} {value : Json}
      {members : List Member} (typed : Inhabits rule property.type value)
      (kept : keeps property.name value) (rest : Fills properties members) :
    Fills (property :: properties) (Format.field property.name value :: members)
  | absent {property : Property} {properties : List Property} {members : List Member}
      (optional : property.optional = true) (rest : Fills properties members) :
    Fills (property :: properties) members

variable {rule keeps} {properties : List Property} {members : List Member}

namespace Fills

/-- Each member is one of the properties. -/
theorem exists_property (h : Fills rule keeps properties members) :
    ∀ member ∈ members, ∃ property ∈ properties, ∃ value,
      member.pair? = some (property.name, value) ∧ Inhabits rule property.type value ∧
        keeps property.name value := by
  induction h with
  | nil => exact fun member hmem => absurd hmem List.not_mem_nil
  | @present property properties value members typed kept rest ih =>
    refine List.forall_mem_cons.2
      ⟨⟨property, List.mem_cons_self, value, pair?_field _ _, typed, kept⟩, fun member hmem => ?_⟩
    obtain ⟨other, hother, hmember⟩ := ih member hmem
    exact ⟨other, List.mem_cons_of_mem _ hother, hmember⟩
  | absent optional rest ih =>
    intro member hmem
    obtain ⟨other, hother, hmember⟩ := ih member hmem
    exact ⟨other, List.mem_cons_of_mem _ hother, hmember⟩

/-- The names of the members are names of properties, in their order. -/
theorem names_sublist (h : Fills rule keeps properties members) :
    (names (.object members)).Sublist (properties.map (·.name)) := by
  induction h with
  | nil => exact .slnil
  | present typed kept rest ih =>
    rw [names, entries, List.filterMap_cons_some (pair?_field _ _)]
    exact ih.cons_cons _
  | absent optional rest ih => exact ih.cons _

/-- No property is missing that may not be. -/
theorem mem_names (h : Fills rule keeps properties members) :
    ∀ property ∈ properties, property.optional = false →
      property.name ∈ names (.object members) := by
  induction h with
  | nil => exact fun property hmem => absurd hmem List.not_mem_nil
  | @present property properties value members typed kept rest ih =>
    rw [names, entries, List.filterMap_cons_some (pair?_field _ _)]
    exact List.forall_mem_cons.2
      ⟨fun _ => List.mem_cons_self, fun other hother hrequired =>
        List.mem_cons_of_mem _ (ih other hother hrequired)⟩
  | absent optional rest ih =>
    refine List.forall_mem_cons.2 ⟨fun hrequired => ?_, ih⟩
    rw [optional] at hrequired
    cases hrequired

end Fills

/-- An object that has the properties of a declared type in their order is of that type. -/
theorem Inhabits.of_fills {name : String} (declared : definition? name = some (.object properties))
    (distinct : (properties.map (·.name)).Nodup)
    (ruled : single properties members →
      (∀ entry ∈ entries (.object members),
        entry.1 ∈ properties.map (·.name) ∧ keeps entry.1 entry.2) → rule properties members)
    (h : Fills rule keeps properties members) :
    Inhabits rule (.reference name) (.object members) := by
  -- Every entry is that of a property, of which the type and the rule are known.
  have hentry : ∀ entry ∈ entries (.object members), ∃ property ∈ properties,
      property.name = entry.1 ∧ Inhabits rule property.type entry.2 ∧
        keeps property.name entry.2 := by
    intro entry hentry
    obtain ⟨member, hmember, hread⟩ := List.mem_filterMap.1 hentry
    obtain ⟨property, hproperty, value, hvalue, htyped⟩ := h.exists_property member hmember
    obtain rfl : (property.name, value) = entry := Option.some.inj (hvalue.symm.trans hread)
    exact ⟨property, hproperty, rfl, htyped⟩
  refine .object declared ?_ h.mem_names (ruled ?_ ?_) ?_
  · intro member hmember
    obtain ⟨property, -, value, hvalue, -⟩ := h.exists_property member hmember
    rw [hvalue]
    rfl
  · intro property _
    exact List.nodup_iff_count_le_one.1 (distinct.sublist h.names_sublist) property.name
  · intro entry hmem
    obtain ⟨property, hproperty, hname, -, hkept⟩ := hentry entry hmem
    rw [← hname]
    exact ⟨List.mem_map_of_mem hproperty, hkept⟩
  · intro property hproperty entry hmem hname
    obtain ⟨other, hother, hsame, htyped, -⟩ := hentry entry hmem
    -- Two properties of one name are the same.
    obtain rfl : other = property :=
      List.inj_on_of_nodup_map distinct hother hproperty (hsame.trans hname)
    exact htyped

end Fills

end TypeScript

end RunTrace
