import Mathlib.Data.List.Nodup
import RunTrace.Proofs.Format.Fields
import RunTrace.Proofs.Json.Complete

/-!
# Members in any order

A record is read from an object whatever the order of its members is and whatever other members it
has, as long as no field is given twice, none is missing that may not be left out, and each can be
read by itself.

## Main results

* `Slots.FilledAt.exists_readMembers`: members of any names are read one after the other;
* `exists_readRecord`: so a record is read from an object.
-/

namespace RunTrace

namespace Json

/-- A member by its name; there is none if the key is no well-formed string. -/
def Member.pair? : Member → Option (String × Json)
  | .member key value => key.read.toOption.map (·, value)
  | .torn _ => none

/-- The members of an object by their names. -/
def entries : Json → List (String × Json)
  | .object members => members.filterMap Member.pair?
  | _ => []

/-- The names of the members of an object. -/
def names (json : Json) : List String :=
  json.entries.map (·.1)

@[simp]
theorem pair?_field (key : String) (value : Json) :
    (Format.field key value).pair? = some (key, value) := by
  rw [Format.field, Member.pair?, StringLiteral.read_ofText]
  rfl

/-- A member with a name is written out, and its key is read as its name. -/
theorem Member.eq_of_pair? {member : Member} {name : String} {value : Json}
    (h : member.pair? = some (name, value)) :
    ∃ key, member = .member key value ∧ key.read = .ok name := by
  cases member with
  | torn tear => cases h
  | member key json =>
    rw [pair?] at h
    cases hread : key.read with
    | error error => simp [hread, Except.toOption] at h
    | ok text =>
      obtain ⟨rfl, rfl⟩ : text = name ∧ json = value := by
        simpa [hread, Except.toOption] using h
      exact ⟨key, rfl, hread⟩

theorem entries_cons {member : Member} {entry : String × Json} (h : member.pair? = some entry)
    (members : List Member) :
    (object (member :: members)).entries = entry :: (object members).entries :=
  List.filterMap_cons_some h

end Json

namespace Format

open Json

variable {read : (kind : Kind) → Json → Except ReadError kind.Value}

/-- The slots with values are those of the fields with certain keys. -/
def Slots.FilledAt (filled : String → Prop) : (fields : List Field) → Slots fields → Prop
  | [], () => True
  | field :: fields, (slot, slots) =>
    (slot.isSome = true ↔ filled field.key) ∧ FilledAt filled fields slots

namespace Slots.FilledAt

variable {fields : List Field} {slots : Slots fields} {filled other : String → Prop}

theorem empty (fields : List Field) : FilledAt (fun _ => False) fields (Slots.empty fields) := by
  induction fields with
  | nil => trivial
  | cons field fields ih => exact ⟨by simp, ih⟩

theorem congr (filledAt : FilledAt filled fields slots)
    (h : ∀ field ∈ fields, filled field.key ↔ other field.key) : FilledAt other fields slots := by
  induction fields with
  | nil => trivial
  | cons field fields ih =>
    obtain ⟨hfirst, hfields⟩ := List.forall_mem_cons.1 h
    exact ⟨filledAt.1.trans hfirst, ih filledAt.2 hfields⟩

/-- A member is read if it can be read into its field and no value is there yet, or if it has no
field and can be skipped. -/
theorem exists_readMember {name : String} {value : Json}
    (filledAt : FilledAt filled fields slots) (distinct : (fields.map (·.key)).Nodup)
    (fresh : name ∈ fields.map (·.key) → ¬ filled name)
    (reads : ∀ field ∈ fields, name = field.key → ∃ v, read field.kind value = .ok v)
    (skips : name ∉ fields.map (·.key) → value.skip = .ok ()) :
    ∃ result, readMember read name value fields slots = .ok result ∧
      FilledAt (fun key => key = name ∨ filled key) fields result := by
  induction fields with
  | nil => exact ⟨(), by rw [readMember, skips List.not_mem_nil]; rfl, trivial⟩
  | cons field fields ih =>
    obtain ⟨slot, slots⟩ := slots
    obtain ⟨hslot, hslots⟩ := filledAt
    obtain ⟨hkey, hdistinct⟩ := List.nodup_cons.1 distinct
    by_cases hname : field.key = name
    · subst hname
      obtain ⟨v, hread⟩ := reads field List.mem_cons_self rfl
      obtain rfl : slot = none := by
        rw [← Option.not_isSome_iff_eq_none, hslot]
        exact fresh List.mem_cons_self
      refine ⟨(some v, slots), ?_, by simp, hslots.congr fun later hlater => ?_⟩
      · simp only [readMember, if_pos, hread]
        rfl
      · -- A later field has another key.
        have hne : later.key ≠ field.key :=
          fun heq => hkey (List.mem_map.2 ⟨later, hlater, heq⟩)
        simp [hne]
    · have hmem : name ∈ (field :: fields).map (·.key) ↔ name ∈ fields.map (·.key) := by
        simp [Ne.symm hname]
      obtain ⟨result, hresult, hfilled⟩ := ih hslots hdistinct (fun h => fresh (hmem.2 h))
        (fun later hlater => reads later (List.mem_cons_of_mem _ hlater))
        (fun h => skips (mt hmem.1 h))
      refine ⟨(slot, result), ?_, ?_, hfilled⟩
      · simp only [readMember, if_neg hname, hresult]
        rfl
      · simpa [hname] using hslot

/-- Members are read one after the other if no field is given twice, those that have fields can be
read into them, and all others can be skipped. -/
theorem exists_readMembers {members : List Member}
    (filledAt : FilledAt filled fields slots) (distinct : (fields.map (·.key)).Nodup)
    (named : ∀ member ∈ members, member.pair?.isSome)
    (once : ∀ field ∈ fields, (names (.object members)).count field.key ≤ 1)
    (fresh : ∀ field ∈ fields, filled field.key → field.key ∉ names (.object members))
    (reads : ∀ field ∈ fields, ∀ entry ∈ entries (.object members), entry.1 = field.key →
      ∃ v, read field.kind entry.2 = .ok v)
    (skips : ∀ entry ∈ entries (.object members), entry.1 ∉ fields.map (·.key) →
      entry.2.skip = .ok ()) :
    ∃ result, readMembers read fields slots members = .ok result ∧
      FilledAt (fun key => key ∈ names (.object members) ∨ filled key) fields result := by
  induction members generalizing slots filled with
  | nil => exact ⟨slots, rfl, filledAt.congr fun _ _ => by simp [names, entries]⟩
  | cons member members ih =>
    obtain ⟨hmember, hmembers⟩ := List.forall_mem_cons.1 named
    obtain ⟨⟨name, value⟩, hentry⟩ := Option.isSome_iff_exists.1 hmember
    obtain ⟨key, rfl, hkey⟩ := Member.eq_of_pair? hentry
    simp only [names, entries_cons hentry, List.map_cons, List.forall_mem_cons] at *
    -- The first member fills its field, which is then no longer fresh for the others.
    obtain ⟨first, hfirst, hfilled⟩ : ∃ first, readMember read name value fields slots = .ok first ∧
        FilledAt (fun key => key = name ∨ filled key) fields first := by
      refine filledAt.exists_readMember distinct (fun hname hdone => ?_)
        (fun field hfield => (reads field hfield).1) skips.1
      obtain ⟨field, hfield, rfl⟩ := List.mem_map.1 hname
      exact fresh field hfield hdone List.mem_cons_self
    have hfresh : ∀ field ∈ fields, field.key = name ∨ filled field.key →
        field.key ∉ (object members).entries.map (·.1) := by
      intro field hfield hdone
      rcases hdone with hname | hdone
      · -- The field has been given by the first member, so it is not given again.
        have hcount := once field hfield
        rw [hname, List.count_cons_self] at hcount
        rw [hname]
        exact List.count_eq_zero.1 (by omega)
      · exact fun hmem => fresh field hfield hdone (List.mem_cons_of_mem _ hmem)
    obtain ⟨result, hresult, hall⟩ := ih hfilled named.2
      (fun field hfield => Nat.le_trans List.count_le_count_cons (once field hfield)) hfresh
      (fun field hfield => (reads field hfield).2) skips.2
    refine ⟨result, ?_, hall.congr fun field _ => ?_⟩
    · rw [readMembers, hkey]
      change (readMember read name value fields slots >>= _) = _
      rw [hfirst]
      exact hresult
    · rw [List.mem_cons, or_left_comm, or_assoc]

/-- There are values for all fields if those without one may be left out. -/
theorem exists_values (filledAt : FilledAt filled fields slots)
    (complete : ∀ field ∈ fields, filled field.key ∨ field.kind.default?.isSome = true) :
    ∃ values, Slots.values fields slots = .ok values := by
  induction fields with
  | nil => exact ⟨(), rfl⟩
  | cons field fields ih =>
    obtain ⟨slot, slots⟩ := slots
    obtain ⟨hfirst, hcomplete⟩ := List.forall_mem_cons.1 complete
    obtain ⟨values, hvalues⟩ := ih filledAt.2 hcomplete
    obtain ⟨value, hvalue⟩ : ∃ value, (slot.orElse fun _ => field.kind.default?) = some value := by
      cases slot with
      | some value => exact ⟨value, rfl⟩
      | none =>
        refine Option.isSome_iff_exists.1 (hfirst.resolve_left fun hfilled => ?_)
        exact Bool.false_ne_true (filledAt.1.2 hfilled)
    refine ⟨(value, values), ?_⟩
    simp only [Slots.values, hvalue, hvalues]
    rfl

end Slots.FilledAt

/-- A record is read from an object if its fields are given by members that can be read, none of
them twice, and all other members can be skipped. -/
theorem exists_readRecord {levels : Nat} {record : Record} {members : List Member}
    (named : ∀ member ∈ members, member.pair?.isSome)
    (once : ∀ field ∈ record.fields, (names (.object members)).count field.key ≤ 1)
    (complete : ∀ field ∈ record.fields,
      field.key ∈ names (.object members) ∨ field.kind.default?.isSome = true)
    (reads : ∀ field ∈ record.fields, ∀ entry ∈ entries (.object members), entry.1 = field.key →
      ∃ v, readField levels field.kind entry.2 = .ok v)
    (skips : ∀ entry ∈ entries (.object members), entry.1 ∉ record.fields.map (·.key) →
      entry.2.skip = .ok ()) :
    ∃ value, readRecord (levels + 1) record (.object members) = .ok value := by
  obtain ⟨slots, hslots, hfilled⟩ := (Slots.FilledAt.empty record.fields).exists_readMembers
    record.nodup_keys named once (fun _ _ => False.elim) reads skips
  obtain ⟨values, hvalues⟩ := hfilled.exists_values fun field hfield =>
    (complete field hfield).imp_left .inl
  refine ⟨record.make values, ?_⟩
  rw [readRecord_succ]
  simp only [hslots]
  change record.make <$> Slots.values record.fields slots = _
  rw [hvalues]
  rfl

end Format

end RunTrace
