import Mathlib.Logic.ExistsUnique
import RunTrace.Proofs.Format.Given
import RunTrace.Proofs.Format.RoundTrip
import RunTrace.Proofs.Json.Grammar

/-!
# The documents of loaded texts

Everything in a record is read or skipped, so nothing breaks off in a document from which a record
is read. So a text that is loaded spells a document, and what is loaded depends on this document
alone.

## Main results

* `complete_of_readRecord`: nothing breaks off in what a record is read from;
* `Format.read_eq_ok_iff`, `Trajectory.load_eq_ok_iff`: a text is read, and loaded, exactly if it
  spells a document from which a trajectory is read, and a valid one.
-/

namespace RunTrace

namespace Format

open Json

theorem complete_of_readText {expected : Expected} {json : Json} {text : String}
    (h : readText expected json = .ok text) : Complete json := by
  cases json with
  | string literal => exact StringLiteral.tear_of_read (mapError_eq_ok.1 h)
  | _ => exact absurd h wrongType_ne_ok

theorem complete_of_readWord {bound : Nat} {expected : Expected} {json : Json} {n : Nat}
    (h : readWord bound expected json = .ok n) : Complete json := by
  cases json with
  | number literal => trivial
  | _ => exact absurd h wrongType_ne_ok

theorem complete_of_readReal {json : Json} {x : Float} (h : readReal json = .ok x) :
    Complete json := by
  cases json with
  | number literal => trivial
  | _ => exact absurd h wrongType_ne_ok

theorem completeMembers_of_readOutcomeMember {members : List Member} {outcome : Outcome}
    (h : readOutcomeMember members = .ok outcome) : CompleteMembers members := by
  match members with
  | .member key value :: rest =>
    rw [readOutcomeMember] at h
    obtain ⟨name, hname, h⟩ := bind_eq_ok.1 h
    obtain ⟨read, -, h⟩ := bind_eq_ok.1 h
    dsimp only at h
    -- The value is null, and no other member follows.
    split at h
    · split at h
      · exact ⟨⟨StringLiteral.tear_of_read (mapError_eq_ok.1 hname), trivial⟩, trivial⟩
      · cases h
      · cases h
    · obtain ⟨_, hnull, -⟩ := bind_eq_ok.1 h
      exact absurd hnull wrongType_ne_ok

theorem complete_of_readOutcome {levels : Nat} {json : Json} {outcome : Outcome}
    (h : readOutcome levels json = .ok outcome) : Complete json := by
  cases json with
  | string literal =>
    obtain ⟨name, hname, -⟩ := bind_eq_ok.1 h
    exact StringLiteral.tear_of_read (mapError_eq_ok.1 hname)
  | object members =>
    rw [readOutcome] at h
    split at h
    · cases h
    · exact completeMembers_of_readOutcomeMember h
  | torn tear => cases tear <;> cases h
  | null | boolean _ | number _ | array _ => cases h

/-- The values of a list have been read from its items. -/
theorem completeItems_of_mapM {α : Type} {read : Json → Except ReadError α} {items : List Json}
    {values : List α} (hread : ∀ item value, read item = .ok value → Complete item)
    (h : items.mapM read = .ok values) : CompleteItems items := by
  induction items generalizing values with
  | nil => trivial
  | cons item items ih =>
    rw [List.mapM_cons] at h
    obtain ⟨first, hfirst, h⟩ := bind_eq_ok.1 h
    obtain ⟨more, hmore, -⟩ := bind_eq_ok.1 h
    exact ⟨hread item first hfirst, ih hmore⟩

/-- Nothing breaks off in what a field is read from, if nothing does in the records in it. -/
theorem complete_of_readField {levels : Nat}
    (hrecords : ∀ below ≤ levels, ∀ record json value,
      readRecord below record json = .ok value → Complete json)
    {kind : Kind} {json : Json} {value : kind.Value} (h : readField levels kind json = .ok value) :
    Complete json := by
  -- A field that may be left out is one of another kind, unless it is `null`.
  induction kind with
  | text => exact complete_of_readText h
  | instant =>
    obtain ⟨text, htext, -⟩ := bind_eq_ok.1 h
    exact complete_of_readText htext
  | word32 | word64 =>
    obtain ⟨n, hn, -⟩ := map_eq_ok.1 h
    exact complete_of_readWord hn
  | real => exact complete_of_readReal h
  | outcome => exact complete_of_readOutcome h
  | record record => exact hrecords levels (Nat.le_refl _) record json value h
  | optional kind ih =>
    cases json with
    | null => trivial
    | _ =>
      obtain ⟨v, hv, -⟩ := map_eq_ok.1 h
      exact ih hv
  | list record =>
    cases json with
    | array items =>
      cases levels with
      | zero => cases h
      | succ below =>
        rw [readField_list] at h
        exact completeItems_of_mapM (hrecords below (Nat.le_succ below) record) h
    | _ => exact absurd h wrongType_ne_ok

section Records

variable {read : (kind : Kind) → Json → Except ReadError kind.Value}
  (hread : ∀ kind json value, read kind json = .ok value → Complete json)

include hread

/-- Nothing breaks off in a member: what it gives for a field is read, and if it gives nothing, it
can be skipped. -/
theorem completeMember_of_given {fields : List Field} {members : List Member} {member : Member}
    {values : Values fields} (given : Values.Given read (givenBy members) fields values)
    (hmem : member ∈ members) (tolerated : Tolerated fields member) : CompleteMember member := by
  obtain ⟨name, json, hpair, hskip⟩ := tolerated
  obtain ⟨key, rfl, hkey⟩ := Member.eq_of_pair? hpair
  refine ⟨StringLiteral.tear_of_read hkey, ?_⟩
  by_cases hname : name ∈ fields.map (·.key)
  · obtain ⟨field, hfield, rfl⟩ := List.mem_map.1 hname
    obtain ⟨value, hvalue⟩ := given.exists_value field hfield
    have hgiven : json ∈ givenBy members field :=
      mem_valuesIn.2 (List.mem_filterMap.2 ⟨_, hmem, hpair⟩)
    exact hread _ _ _ (hvalue.read_of_mem hgiven)
  · exact hskip hname

/-- All items are read, but for those that are left. -/
theorem completeItems_of_readItems {record : Record} {position : Nat} {fields : List Field}
    {items : List Json} {values : Values fields}
    (h : Values.readItems read record position fields items = .ok (values, [])) :
    CompleteItems items := by
  induction fields generalizing position items with
  | nil =>
    obtain rfl : items = [] := (Prod.mk.inj (Except.ok.inj h)).2
    trivial
  | cons field fields ih =>
    cases items with
    | nil => trivial
    | cons item items =>
      rw [Values.readItems] at h
      obtain ⟨v, hv, h⟩ := bind_eq_ok.1 h
      obtain ⟨⟨more, rest⟩, hmore, h⟩ := bind_eq_ok.1 h
      obtain rfl : rest = [] := (Prod.mk.inj (Except.ok.inj h)).2
      exact ⟨hread _ _ _ hv, ih hmore⟩

end Records

theorem checkItemsEnd_eq_ok_iff {items : List Json} :
    checkItemsEnd items = .ok () ↔ items = [] := by
  constructor
  · intro h
    unfold checkItemsEnd at h
    split at h
    · rfl
    all_goals cases h
  · rintro rfl
    rfl

/-- Nothing breaks off in what a record is read from. -/
theorem complete_of_readRecord {levels : Nat} {record : Record} {json : Json}
    {value : record.Value} (h : readRecord levels record json = .ok value) : Complete json := by
  -- The fields are read where fewer levels may be opened, and those in a list are deeper still.
  induction levels using Nat.strongRecOn generalizing record json value with
  | _ levels ih =>
    obtain ⟨below, rfl, -⟩ := readRecord_eq_ok h
    have hread : ∀ kind json value, readField below kind json = .ok value → Complete json :=
      fun kind json value => complete_of_readField fun deeper hle record json value =>
        ih deeper (Nat.lt_succ_of_le hle)
    cases json with
    | object members =>
      obtain ⟨htolerated, values, hvalues, -⟩ := readRecord_object_iff.1 h
      exact completeMembers_iff.2 fun member hmem =>
        completeMember_of_given hread hvalues hmem (htolerated member hmem)
    | array items =>
      rw [readRecord_succ] at h
      obtain ⟨⟨values, rest⟩, hvalues, h⟩ := bind_eq_ok.1 h
      obtain ⟨⟨⟩, hend, -⟩ := bind_eq_ok.1 h
      obtain rfl : rest = [] := checkItemsEnd_eq_ok_iff.1 hend
      exact completeItems_of_readItems hread hvalues
    | _ =>
      rw [readRecord_succ] at h
      exact absurd h wrongType_ne_ok

end Format

open Format

/-- A trajectory is read from a text exactly if the text spells a document from which it is read. -/
theorem Format.read_eq_ok_iff {text : String} {trajectory : Trajectory} :
    Format.read text = .ok trajectory ↔
      ∃ document : Json, document.SpelledBy text.toList ∧
        readRecord nestingLimit .trajectory document = .ok trajectory := by
  constructor
  · intro hread
    rw [Format.read] at hread
    cases hdocument : Json.Document.ofText text.toList with
    | mk root trailing =>
      -- What follows the document is not read, but the text is refused if there is anything.
      rw [hdocument] at hread
      obtain ⟨result, hresult, hread⟩ := bind_eq_ok.1 hread
      cases trailing with
      | true => cases hread
      | false =>
        obtain rfl : result = trajectory := Except.ok.inj hread
        have hcomplete := complete_of_readRecord hresult
        exact ⟨root, Json.ofText_eq_iff.1 ⟨hdocument, hcomplete⟩, hresult⟩
  · rintro ⟨document, hspelled, hread⟩
    obtain ⟨hdocument, -⟩ := Json.ofText_eq_iff.2 hspelled
    rw [Format.read, hdocument, readDocument, hread]
    rfl

/-- A text is loaded exactly if it spells a document from which a valid trajectory is read. -/
theorem Trajectory.load_eq_ok_iff {text : String} {trajectory : Trajectory} :
    Trajectory.load text = .ok trajectory ↔
      (∃ document : Json, document.SpelledBy text.toList ∧
        readRecord nestingLimit .trajectory document = .ok trajectory) ∧
      trajectory.validate = .ok () := by
  rw [← Format.read_eq_ok_iff]
  refine ⟨load_eq_ok, fun ⟨hread, hvalid⟩ => ?_⟩
  rw [Trajectory.load, Trajectory.parse, hread]
  exact bind_eq_ok.2 ⟨trajectory, rfl, bind_eq_ok.2 ⟨(), mapError_eq_ok.2 hvalid, rfl⟩⟩

/-- A text that is loaded spells exactly one document. -/
theorem Trajectory.existsUnique_document {text : String} {trajectory : Trajectory}
    (h : Trajectory.load text = .ok trajectory) :
    ∃! document : Json, document.SpelledBy text.toList := by
  obtain ⟨⟨document, hspelled, -⟩, -⟩ := load_eq_ok_iff.1 h
  exact ⟨document, hspelled, fun other hother => hother.eq hspelled⟩

end RunTrace
