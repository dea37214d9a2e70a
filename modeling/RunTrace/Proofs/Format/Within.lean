import Mathlib.Logic.Relation
import RunTrace.Proofs.Format.Nesting

/-!
# Changes within a document

A record can stand anywhere in a document: in a field of another record, which may be given by a
member or by an item, or in a list. A change of records that does not show where they are read does
not show where the document is read, wherever the record stands.

## Main results

* `Within.readsAs`: a change within a value does not show;
* `readsAs_of_reflTransGen`: nor do any number of them.
-/

namespace RunTrace.Format

open Json

/-- Of two values of a kind, the second one is the first one after a change of one record in it:
of the value itself, of the value of a field, or of an item of a list. -/
inductive Within (change : Record → Json → Json → Prop) : Kind → Json → Json → Prop
  | here {record : Record} {json json' : Json} (h : change record json json') :
      Within change (.record record) json json'
  | member {record : Record} {above below : List Member} {key : StringLiteral} {field : Field}
      {json json' : Json} (hkey : key.read = .ok field.key) (hfield : field ∈ record.fields)
      (h : Within change field.kind json json') :
      Within change (.record record) (.object (above ++ .member key json :: below))
        (.object (above ++ .member key json' :: below))
  | item {record : Record} {above below : List Json} {field : Field} {json json' : Json}
      (hfield : record.fields[above.length]? = some field)
      (h : Within change field.kind json json') :
      Within change (.record record) (.array (above ++ json :: below))
        (.array (above ++ json' :: below))
  | entry {record : Record} {above below : List Json} {json json' : Json}
      (h : Within change (.record record) json json') :
      Within change (.list record) (.array (above ++ json :: below))
        (.array (above ++ json' :: below))

/-- What is read from a value is read from another one as well. -/
def ReadsAs {α : Type} (read : Json → Except ReadError α) (json json' : Json) : Prop :=
  ∀ value, read json = .ok value → read json' = .ok value

/-- A change of a record does not show where the record is read. -/
def Unseen (change : Record → Json → Json → Prop) : Prop :=
  ∀ levels record json json', change record json json' →
    ReadsAs (readRecord levels record) json json'

/-! ## Fields -/

section

variable {read : (kind : Kind) → Json → Except ReadError kind.Value} {json json' : Json}

theorem Kind.Given.readsAs {kind : Kind} {rest : List Json} {value : kind.Value}
    (h : kind.Given read (json :: rest) value) (hjson : ReadsAs (read kind) json json') :
    kind.Given read (json' :: rest) value := by
  match rest with
  | [] => exact hjson value h
  | _ :: _ => exact h.elim

/-- A member does not show if its value does not. -/
theorem readsAs_member {levels : Nat} {record : Record} {above below : List Member}
    {key : StringLiteral} {field : Field} (hkey : key.read = .ok field.key)
    (hfield : field ∈ record.fields)
    (h : ∀ levels, ReadsAs (readField levels field.kind) json json') :
    ReadsAs (readRecord levels record) (.object (above ++ .member key json :: below))
      (.object (above ++ .member key json' :: below)) := by
  intro value hread
  -- The member may as well stand in front of all others.
  refine readRecord_perm (readRecord_of_given (readRecord_perm hread List.perm_middle) ?_ ?_)
    List.perm_middle.symm
  · intro member hnew hold
    obtain rfl | hmem := List.mem_cons.1 hnew
    · exact ⟨field.key, json', pair?_of_read hkey json', fun hnone =>
        absurd (List.mem_map_of_mem hfield) hnone⟩
    · exact absurd (List.mem_cons_of_mem _ hmem) hold
  · intro levels _ other hother v hv
    rw [givenBy_cons (pair?_of_read hkey json)] at hv
    rw [givenBy_cons (pair?_of_read hkey json')]
    by_cases hname : field.key = other.key
    · obtain rfl : field = other := record.eq_of_key_eq hfield hother hname
      rw [valuesIn_singleton rfl] at hv ⊢
      exact hv.readsAs (h levels)
    · rw [valuesIn_singleton_of_ne hname] at hv ⊢
      exact hv

/-- An item does not show if it does not as the value of its field. -/
theorem readItems_readsAs {record : Record} {position : Nat} {fields : List Field}
    {above below : List Json} {field : Field} (hfield : fields[above.length]? = some field)
    (h : ReadsAs (read field.kind) json json') {result : Values fields × List Json}
    (hread : Values.readItems read record position fields (above ++ json :: below) = .ok result) :
    Values.readItems read record position fields (above ++ json' :: below) = .ok result := by
  -- The items in front of the changed one are read into the fields in front of its own.
  induction fields generalizing above position with
  | nil => cases hfield
  | cons first fields ih =>
    cases above with
    | nil =>
      obtain rfl : first = field := Option.some.inj hfield
      obtain ⟨value, hvalue, hread⟩ := bind_eq_ok.1 hread
      exact bind_eq_ok.2 ⟨value, h value hvalue, hread⟩
    | cons item above =>
      obtain ⟨value, hvalue, hread⟩ := bind_eq_ok.1 hread
      obtain ⟨more, hmore, hread⟩ := bind_eq_ok.1 hread
      exact bind_eq_ok.2 ⟨value, hvalue, bind_eq_ok.2 ⟨more, ih hfield hmore, hread⟩⟩

theorem readsAs_item {levels : Nat} {record : Record} {above below : List Json} {field : Field}
    (hfield : record.fields[above.length]? = some field)
    (h : ∀ levels, ReadsAs (readField levels field.kind) json json') :
    ReadsAs (readRecord levels record) (.array (above ++ json :: below))
      (.array (above ++ json' :: below)) := by
  intro value hread
  obtain ⟨levels, rfl, -⟩ := readRecord_eq_ok hread
  rw [readRecord_succ] at hread ⊢
  obtain ⟨result, hresult, hread⟩ := bind_eq_ok.1 hread
  exact bind_eq_ok.2 ⟨result, readItems_readsAs hfield (h levels) hresult, hread⟩

theorem mapM_readsAs {α : Type} {read : Json → Except ReadError α} {above below : List Json}
    {values : List α} (h : ReadsAs read json json')
    (hread : (above ++ json :: below).mapM read = .ok values) :
    (above ++ json' :: below).mapM read = .ok values := by
  induction above generalizing values with
  | nil =>
    rw [List.nil_append, List.mapM_cons] at hread ⊢
    obtain ⟨value, hvalue, hread⟩ := bind_eq_ok.1 hread
    exact bind_eq_ok.2 ⟨value, h value hvalue, hread⟩
  | cons item above ih =>
    rw [List.cons_append, List.mapM_cons] at hread ⊢
    obtain ⟨value, hvalue, hread⟩ := bind_eq_ok.1 hread
    obtain ⟨more, hmore, hread⟩ := bind_eq_ok.1 hread
    exact bind_eq_ok.2 ⟨value, hvalue, bind_eq_ok.2 ⟨more, ih hmore, hread⟩⟩

theorem readsAs_entry {levels : Nat} {record : Record} {above below : List Json}
    (h : ∀ levels, ReadsAs (readField levels (.record record)) json json') :
    ReadsAs (readField levels (.list record)) (.array (above ++ json :: below))
      (.array (above ++ json' :: below)) := by
  intro values hread
  cases levels with
  | zero => cases hread
  | succ levels =>
    rw [readField_list] at hread ⊢
    exact mapM_readsAs (h levels) hread

end

/-! ## Documents -/

section

variable {change : Record → Json → Json → Prop} (unseen : Unseen change)

include unseen

/-- A change that does not show where its record is read does not show further out. -/
theorem Within.readsAs {kind : Kind} {json json' : Json} (h : Within change kind json json') :
    ∀ levels, ReadsAs (readField levels kind) json json' := by
  -- Further out, more levels may be opened, so the statement is for any number of them.
  induction h with
  | here h => exact fun levels => unseen levels _ _ _ h
  | member hkey hfield _ ih => exact fun levels => readsAs_member hkey hfield ih
  | item hfield _ ih => exact fun levels => readsAs_item hfield ih
  | entry _ ih => exact fun levels => readsAs_entry ih

/-- Nor do any number of such changes show. -/
theorem readsAs_of_reflTransGen {levels : Nat} {record : Record} {json json' : Json}
    (h : Relation.ReflTransGen (Within change (.record record)) json json') :
    ReadsAs (readRecord levels record) json json' := by
  intro value hread
  induction h with
  | refl => exact hread
  | tail _ hstep ih => exact hstep.readsAs unseen levels value ih

end

end RunTrace.Format
