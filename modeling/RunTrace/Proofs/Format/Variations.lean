import RunTrace.Proofs.Format.Loaded
import RunTrace.Proofs.Format.Within

/-!
# Texts of the same trajectory

There are many texts for a trajectory. The members of any of its records can stand in another order,
and among others that mean nothing; what a field holds anyway can be written or left out; and there
may be blanks between any two tokens. All of these texts are loaded as the same trajectory.

## Main results

* `unseen_edit`: an edit of the members of a record does not show where it is read;
* `Trajectory.load_variations`: whatever texts are made of a text that is loaded, one after the
  other, are loaded as the same trajectory.
-/

namespace RunTrace

namespace Format

open Json

/-- The edits of the object of a record. -/
inductive Edit (record : Record) : Json → Json → Prop
  /-- The members are put in another order. -/
  | reorder {members members' : List Member} (perm : members.Perm members') :
      Edit record (.object members) (.object members')
  /-- A member is put in whose key is none of the record's, with any value. -/
  | insertUnknown {above below : List Member} {key : StringLiteral} {name : String} {value : Json}
      (hkey : key.read = .ok name) (hname : name ∉ record.fields.map (·.key))
      (hvalue : Complete value) :
      Edit record (.object (above ++ below)) (.object (above ++ .member key value :: below))
  /-- A blank value is put in for a field that has none. -/
  | insertBlank {above below : List Member} {key : StringLiteral} {field : Field} {value : Json}
      (hfield : field ∈ record.fields) (hkey : key.read = .ok field.key)
      (hvalue : field.kind.blank? = some value)
      (habsent : field.key ∉ names (.object (above ++ below))) :
      Edit record (.object (above ++ below)) (.object (above ++ .member key value :: below))
  /-- A blank value is taken out. -/
  | removeBlank {above below : List Member} {key : StringLiteral} {field : Field} {value : Json}
      (hfield : field ∈ record.fields) (hkey : key.read = .ok field.key)
      (hvalue : field.kind.blank? = some value) :
      Edit record (.object (above ++ .member key value :: below)) (.object (above ++ below))

section

variable {levels : Nat} {record : Record} {above below members : List Member}
  {key : StringLiteral} {name : String} {json : Json} {value : record.Value}

/-- A member may be put in front of the others if it does not change what they give. -/
theorem readRecord_cons (h : readRecord levels record (.object members) = .ok value)
    (hkey : key.read = .ok name) (hcomplete : Complete json)
    (given : ∀ below, levels = below + 1 → ∀ field ∈ record.fields, name = field.key → ∀ v,
      field.kind.Given (readField below) (givenBy members field) v →
        field.kind.Given (readField below) (json :: givenBy members field) v) :
    readRecord levels record (.object (.member key json :: members)) = .ok value := by
  refine readRecord_of_given h (fun member hnew hold => ?_)
    fun below hlevels field hfield v hv => ?_
  · obtain rfl | hmem := List.mem_cons.1 hnew
    · exact ⟨name, json, pair?_of_read hkey json, fun _ => hcomplete⟩
    · exact absurd hmem hold
  · rw [givenBy_cons (pair?_of_read hkey json)]
    by_cases hname : name = field.key
    · rw [valuesIn_singleton hname]
      exact given below hlevels field hfield hname v hv
    · rwa [valuesIn_singleton_of_ne hname, List.nil_append]

/-- A member may be taken from the front if the others give the same without it. -/
theorem readRecord_tail
    (h : readRecord levels record (.object (.member key json :: members)) = .ok value)
    (hkey : key.read = .ok name)
    (given : ∀ below, ∀ field ∈ record.fields, name = field.key → ∀ v,
      field.kind.Given (readField below) (json :: givenBy members field) v →
        field.kind.Given (readField below) (givenBy members field) v) :
    readRecord levels record (.object members) = .ok value := by
  refine readRecord_of_given h (fun member hnew hold => ?_) fun below _ field hfield v hv => ?_
  · exact absurd (List.mem_cons_of_mem _ hnew) hold
  · rw [givenBy_cons (pair?_of_read hkey json)] at hv
    by_cases hname : name = field.key
    · rw [valuesIn_singleton hname] at hv
      exact given below field hfield hname v hv
    · rwa [valuesIn_singleton_of_ne hname, List.nil_append] at hv

theorem givenBy_eq_nil {field : Field} (h : field.key ∉ names (.object members)) :
    givenBy members field = [] :=
  List.eq_nil_iff_forall_not_mem.2 fun _ hmem => h (List.mem_map.2 ⟨_, mem_valuesIn.1 hmem, rfl⟩)

theorem complete_of_blank? {kind : Kind} (h : kind.blank? = some json) : Complete json := by
  cases kind with
  | optional _ | list _ =>
    cases h
    trivial
  | text | instant | word32 | word64 | real | outcome | record _ => cases h

end

/-- The edits of a record do not show where it is read. -/
theorem unseen_edit : Unseen Edit := by
  intro levels record json json' edit value hread
  -- It does not matter where among the others a member stands.
  cases edit with
  | reorder perm => exact readRecord_perm hread perm
  | insertUnknown hkey hname hvalue =>
    refine readRecord_perm (readRecord_cons hread hkey hvalue ?_) List.perm_middle.symm
    -- It gives nothing for any field.
    intro below _ field hfield hsame
    exact absurd (hsame ▸ List.mem_map_of_mem hfield) hname
  | @insertBlank above below key field json hfield hkey hvalue habsent =>
    refine readRecord_perm (readRecord_cons hread hkey (complete_of_blank? hvalue) ?_)
      List.perm_middle.symm
    rintro levels rfl other hother hsame v hv
    obtain rfl : field = other := record.eq_of_key_eq hfield hother hsame
    have hlevels := pos_of_readRecord hread hfield (Option.isSome_iff_exists.2 ⟨_, hvalue⟩)
    -- So far nothing is given for the field, and its value is the default.
    rw [givenBy_eq_nil habsent] at hv ⊢
    exact readField_blank hvalue hlevels hv
  | @removeBlank above below key field json hfield hkey hvalue =>
    refine readRecord_tail (readRecord_perm hread List.perm_middle) hkey ?_
    intro levels other hother hsame v hv
    obtain rfl : field = other := record.eq_of_key_eq hfield hother hsame
    -- As no second value is given for the field, nothing is left for it.
    have hrest := hv.eq_nil_of_cons
    rw [hrest] at hv ⊢
    exact default?_of_readField_blank hvalue hv

/-- Two texts of the same trajectory, the second one made of the first one in a single step. -/
inductive Variation : String → String → Prop
  /-- The same document is spelled with other blanks between its tokens, or with other escapes in
  its strings. -/
  | respell {document : Json} {text text' : String} (h : document.SpelledBy text.toList)
      (h' : document.SpelledBy text'.toList) : Variation text text'
  /-- One of the records in the document is edited. -/
  | edit {document document' : Json} {text text' : String} (h : document.SpelledBy text.toList)
      (h' : document'.SpelledBy text'.toList)
      (edit : Within Edit (.record .trajectory) document document') : Variation text text'

end Format

open Format

/-- A single step to another text is loaded as the same trajectory. -/
theorem Trajectory.load_variation {text text' : String} {trajectory : Trajectory}
    (h : Trajectory.load text = .ok trajectory) (step : Variation text text') :
    Trajectory.load text' = .ok trajectory := by
  obtain ⟨⟨document, hspelled, hread⟩, hvalid⟩ := load_eq_ok_iff.1 h
  -- A text spells one document only, so it is the one from which the trajectory is read.
  cases step with
  | respell hfirst hsecond =>
    obtain rfl := hspelled.eq hfirst
    exact load_eq_ok_iff.2 ⟨⟨document, hsecond, hread⟩, hvalid⟩
  | edit hfirst hsecond edit =>
    obtain rfl := hspelled.eq hfirst
    exact load_eq_ok_iff.2 ⟨⟨_, hsecond, edit.readsAs unseen_edit nestingLimit _ hread⟩, hvalid⟩

/-- A text that is loaded spells exactly one document, and all texts that are made of it by any
number of steps are loaded as the same trajectory. -/
theorem Trajectory.load_variations {text : String} {trajectory : Trajectory}
    (h : Trajectory.load text = .ok trajectory) :
    (∃! document : Json, document.SpelledBy text.toList) ∧
      ∀ text', Relation.ReflTransGen Variation text text' →
        Trajectory.load text' = .ok trajectory := by
  refine ⟨existsUnique_document h, fun text' steps => ?_⟩
  induction steps with
  | refl => exact h
  | tail _ hstep ih => exact load_variation ih hstep

/-- A document with a note in front of the members of its object. -/
def Format.noted : Json → Json
  | .object members => .object (field "note" (.array [.array [], .null]) :: members)
  | other => other

/-- The demo trajectory is loaded from its text with a note in it. -/
theorem Trajectory.load_variations_demo :
    Trajectory.load (write demoTrajectory) = .ok demoTrajectory ∧
      Variation (write demoTrajectory) (noted (trajectoryValue demoTrajectory)).text ∧
      Trajectory.load (noted (trajectoryValue demoTrajectory)).text = .ok demoTrajectory := by
  have hload := load_demoTrajectory demoTrajectory.runId
  have hspellable := spellable_trajectoryValue demoTrajectory
  have hnoted : Json.Spellable (noted (trajectoryValue demoTrajectory)) :=
    ⟨spellable_field "note" ⟨trivial, trivial, trivial⟩, hspellable⟩
  have hstep : Variation (write demoTrajectory) (noted (trajectoryValue demoTrajectory)).text := by
    refine .edit (Json.spelledBy_text hspellable) (Json.spelledBy_text hnoted) (.here ?_)
    refine @Edit.insertUnknown _ [] _ _ _ _ (Json.StringLiteral.read_ofText "note") ?_ ?_
    · decide
    · exact ⟨trivial, trivial, trivial⟩
  exact ⟨hload, hstep, (Trajectory.load_variations hload).2 _ (.single hstep)⟩

end RunTrace
