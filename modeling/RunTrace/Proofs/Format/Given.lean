import RunTrace.Proofs.Format.Members
import RunTrace.Proofs.Results

/-!
# What the members of an object give

An object gives values for the fields of a record, and nothing else about it matters: not the order
of its members, and not what is skipped. A record is read from an object exactly if each field is
given a value that can be read, or none if it may be left out, and the others can be skipped.

## Main results

* `Slots.FilledBy.readMember`: what one member fills;
* `Slots.FilledBy.readMembers`: so what all of them fill;
* `readRecord_object_iff`: which record is read from an object, and when.
-/

namespace RunTrace.Format

open Json

/-- The values that members with names give for a field, in order. -/
def valuesIn (entries : List (String × Json)) (field : Field) : List Json :=
  (entries.filter fun entry => entry.1 = field.key).map (·.2)

section Entries

variable (name : String) (value : Json) (entries others : List (String × Json)) (field : Field)

theorem valuesIn_append :
    valuesIn (entries ++ others) field = valuesIn entries field ++ valuesIn others field := by
  simp [valuesIn]

variable {name value entries field}

theorem valuesIn_singleton (h : name = field.key) : valuesIn [(name, value)] field = [value] := by
  simp [valuesIn, h]

theorem valuesIn_singleton_of_ne (h : name ≠ field.key) :
    valuesIn [(name, value)] field = [] := by
  simp [valuesIn, h]

theorem mem_valuesIn : value ∈ valuesIn entries field ↔ (field.key, value) ∈ entries := by
  simp [valuesIn]

theorem length_valuesIn :
    (valuesIn entries field).length = (entries.map (·.1)).count field.key := by
  rw [valuesIn, List.length_map, ← List.countP_eq_length_filter, List.count, List.countP_map]
  rfl

end Entries

/-- A member with a key that can be read has it as its name. -/
theorem pair?_of_read {key : StringLiteral} {name : String} (h : key.read = .ok name)
    (value : Json) : (Member.member key value).pair? = some (name, value) := by
  rw [Member.pair?, h]
  rfl

/-- No two fields of a record have the same key. -/
theorem Record.eq_of_key_eq {record : Record} {field other : Field}
    (hfield : field ∈ record.fields) (hother : other ∈ record.fields)
    (h : field.key = other.key) : field = other :=
  List.inj_on_of_nodup_map record.nodup_keys hfield hother h

/-- A member has a name, and if it gives nothing for the fields, it can be skipped. -/
def Tolerated (fields : List Field) (member : Member) : Prop :=
  ∃ name value, member.pair? = some (name, value) ∧
    (name ∉ fields.map (·.key) → Complete value)

section Given

variable (read : (kind : Kind) → Json → Except ReadError kind.Value)

/-- The value of a field for which these values are given: a single one is read, and if there is
none, the field is left out. -/
def Kind.Given (kind : Kind) : List Json → kind.Value → Prop
  | [], value => kind.default? = some value
  | [json], value => read kind json = .ok value
  | _, _ => False

/-- The values of fields for which these values are given. -/
def Values.Given (given : Field → List Json) : (fields : List Field) → Values fields → Prop
  | [], () => True
  | field :: fields, (value, values) =>
    field.kind.Given read (given field) value ∧ Given given fields values

/-- The slot of a field for which these values are given so far: it holds what is read of a single
one, and is empty if there is none. -/
def Kind.Fills (kind : Kind) : List Json → Option kind.Value → Prop
  | [], none => True
  | [json], some value => read kind json = .ok value
  | _, _ => False

/-- The slots of fields for which these values are given so far. -/
def Slots.FilledBy (given : Field → List Json) : (fields : List Field) → Slots fields → Prop
  | [], () => True
  | field :: fields, (slot, slots) =>
    field.kind.Fills read (given field) slot ∧ FilledBy given fields slots

variable {read}

variable {fields : List Field} {given other : Field → List Json}

theorem Kind.Given.eq {kind : Kind} {jsons : List Json} {value value' : kind.Value}
    (h : kind.Given read jsons value) (h' : kind.Given read jsons value') : value = value' := by
  match jsons with
  | [] => exact Option.some.inj (h.symm.trans h')
  | [json] => exact Except.ok.inj (h.symm.trans h')
  | _ :: _ :: _ => exact h.elim

/-- It does not matter in which order values are given for a field. -/
theorem Kind.Given.perm {kind : Kind} {jsons others : List Json} {value : kind.Value}
    (h : kind.Given read jsons value) (perm : jsons.Perm others) :
    kind.Given read others value := by
  match jsons with
  | [] => exact perm.nil_eq ▸ h
  | [json] => exact (List.singleton_perm.1 perm) ▸ h
  | _ :: _ :: _ => exact h.elim

theorem Kind.Given.length_le {kind : Kind} {jsons : List Json} {value : kind.Value}
    (h : kind.Given read jsons value) : jsons.length ≤ 1 := by
  match jsons with
  | [] | [_] => simp
  | _ :: _ :: _ => exact h.elim

/-- Whatever is given for a field is what its value is read from. -/
theorem Kind.Given.read_of_mem {kind : Kind} {jsons : List Json} {value : kind.Value} {json : Json}
    (h : kind.Given read jsons value) (hmem : json ∈ jsons) : read kind json = .ok value := by
  match jsons with
  | [first] => exact List.mem_singleton.1 hmem ▸ h
  | _ :: _ :: _ => exact h.elim

/-- No second value is given for a field. -/
theorem Kind.Given.eq_nil_of_cons {kind : Kind} {json : Json} {rest : List Json}
    {value : kind.Value} (h : kind.Given read (json :: rest) value) : rest = [] := by
  match rest with
  | [] => rfl
  | _ :: _ => exact h.elim

theorem Kind.Fills.eq_nil {kind : Kind} {jsons : List Json} (h : kind.Fills read jsons none) :
    jsons = [] := by
  match jsons with
  | [] => rfl
  | [_] | _ :: _ :: _ => exact h.elim

/-- The value of a slot, or else the default, is the value of what has been given. -/
theorem Kind.Fills.toGiven {kind : Kind} {jsons : List Json} {slot : Option kind.Value}
    {value : kind.Value} (h : kind.Fills read jsons slot)
    (hvalue : (slot.orElse fun _ => kind.default?) = some value) : kind.Given read jsons value := by
  match jsons, slot with
  | [], none => exact hvalue
  | [json], some first =>
    obtain rfl : first = value := Option.some.inj hvalue
    exact h

theorem Values.Given.eq {values values' : Values fields} (h : Values.Given read given fields values)
    (h' : Values.Given read given fields values') : values = values' := by
  induction fields with
  | nil => rfl
  | cons field fields ih => exact Prod.ext (h.1.eq h'.1) (ih h.2 h'.2)

/-- Fields have the same values if what else is given for each of them has the same value. -/
theorem Values.Given.imp {values : Values fields} (h : Values.Given read given fields values)
    (himp : ∀ field ∈ fields, ∀ value, field.kind.Given read (given field) value →
      field.kind.Given read (other field) value) :
    Values.Given read other fields values := by
  induction fields with
  | nil => trivial
  | cons field fields ih =>
    obtain ⟨hfirst, hmore⟩ := List.forall_mem_cons.1 himp
    exact ⟨hfirst _ h.1, ih h.2 hmore⟩

/-- For each field, what is given for it has a value. -/
theorem Values.Given.exists_value {values : Values fields}
    (h : Values.Given read given fields values) :
    ∀ field ∈ fields, ∃ value, field.kind.Given read (given field) value := by
  induction fields with
  | nil => exact List.forall_mem_nil _
  | cons field fields ih => exact List.forall_mem_cons.2 ⟨⟨values.1, h.1⟩, ih h.2⟩

namespace Slots.FilledBy

variable {slots : Slots fields}

theorem empty (fields : List Field) :
    FilledBy read (valuesIn []) fields (Slots.empty fields) := by
  induction fields with
  | nil => trivial
  | cons field fields ih => exact ⟨trivial, ih⟩

theorem congr (h : FilledBy read given fields slots)
    (hsame : ∀ field ∈ fields, given field = other field) : FilledBy read other fields slots := by
  induction fields with
  | nil => trivial
  | cons field fields ih =>
    obtain ⟨hfirst, hmore⟩ := List.forall_mem_cons.1 hsame
    exact ⟨hfirst ▸ h.1, ih h.2 hmore⟩

/-- A member fills the empty slot of its field, or it has none and is skipped. -/
theorem readMember {name : String} {value : Json} {result : Slots fields}
    {done : List (String × Json)} (distinct : (fields.map (·.key)).Nodup)
    (h : FilledBy read (valuesIn done) fields slots)
    (hread : Slots.readMember read name value fields slots = .ok result) :
    FilledBy read (valuesIn (done ++ [(name, value)])) fields result ∧
      (name ∉ fields.map (·.key) → Complete value) := by
  induction fields with
  | nil =>
    have hskip : liftJson value.skip = .ok result := hread
    exact ⟨trivial, fun _ => (skip_eq_ok_iff value).1 (mapError_eq_ok.1 hskip)⟩
  | cons field fields ih =>
    obtain ⟨hkey, hdistinct⟩ := List.nodup_cons.1 distinct
    obtain ⟨slot, slots⟩ := slots
    by_cases hname : field.key = name
    · -- The slot of the field has to be empty, and all other fields have other keys.
      have hothers : ∀ later ∈ fields, later.key ≠ name := fun later hlater heq =>
        hkey (List.mem_map.2 ⟨later, hlater, heq.trans hname.symm⟩)
      refine ⟨?_, fun hnone => absurd (List.mem_map.2 ⟨field, List.mem_cons_self, hname⟩) hnone⟩
      cases slot with
      | some first =>
        simp only [Slots.readMember, if_pos hname] at hread
        cases hread
      | none =>
        simp only [Slots.readMember, if_pos hname] at hread
        obtain ⟨v, hv, hread⟩ := bind_eq_ok.1 hread
        obtain rfl : (some v, slots) = result := Except.ok.inj hread
        refine ⟨?_, h.2.congr fun later hlater => ?_⟩
        · rw [valuesIn_append, h.1.eq_nil, valuesIn_singleton hname.symm]
          exact hv
        · rw [valuesIn_append, valuesIn_singleton_of_ne (hothers later hlater).symm,
            List.append_nil]
    · -- The member is passed on to the fields behind the first.
      simp only [Slots.readMember, if_neg hname] at hread
      obtain ⟨more, hmore, hread⟩ := bind_eq_ok.1 hread
      obtain rfl : (slot, more) = result := Except.ok.inj hread
      have hsame : valuesIn (done ++ [(name, value)]) field = valuesIn done field := by
        rw [valuesIn_append, valuesIn_singleton_of_ne (Ne.symm hname), List.append_nil]
      obtain ⟨hfilled, hskip⟩ := ih hdistinct h.2 hmore
      exact ⟨⟨hsame.symm ▸ h.1, hfilled⟩, fun hnone => hskip fun hmem =>
        hnone (List.mem_cons_of_mem _ hmem)⟩

/-- The members of an object fill the slots one after the other, and those that fill none are
skipped. -/
theorem readMembers {members : List Member} {result : Slots fields}
    {done : List (String × Json)} (distinct : (fields.map (·.key)).Nodup)
    (h : FilledBy read (valuesIn done) fields slots)
    (hread : Slots.readMembers read fields slots members = .ok result) :
    FilledBy read (valuesIn (done ++ entries (.object members))) fields result ∧
      ∀ member ∈ members, Tolerated fields member := by
  induction members generalizing slots done with
  | nil =>
    obtain rfl : slots = result := Except.ok.inj hread
    refine ⟨?_, List.forall_mem_nil _⟩
    rwa [show entries (.object []) = [] from rfl, List.append_nil]
  | cons member members ih =>
    cases member with
    | torn tear => cases hread
    | member key value =>
      rw [Slots.readMembers] at hread
      obtain ⟨name, hname, hread⟩ := bind_eq_ok.1 hread
      obtain ⟨next, hnext, hread⟩ := bind_eq_ok.1 hread
      have hpair := pair?_of_read (mapError_eq_ok.1 hname) value
      obtain ⟨hfilled, hskip⟩ := h.readMember distinct hnext
      obtain ⟨hall, htolerated⟩ := ih hfilled hread
      rw [List.append_assoc, List.singleton_append, ← entries_cons hpair] at hall
      exact ⟨hall, List.forall_mem_cons.2 ⟨⟨name, value, hpair, hskip⟩, htolerated⟩⟩

/-- The values of filled slots, and the defaults of the others, are those that are given. -/
theorem values {values : Values fields} (h : FilledBy read given fields slots)
    (hvalues : Slots.values fields slots = .ok values) : Values.Given read given fields values := by
  induction fields with
  | nil => trivial
  | cons field fields ih =>
    obtain ⟨slot, slots⟩ := slots
    simp only [Slots.values] at hvalues
    split at hvalues
    · next value heq =>
      obtain ⟨more, hmore, hvalues⟩ := bind_eq_ok.1 hvalues
      obtain rfl : (value, more) = values := Except.ok.inj hvalues
      exact ⟨h.1.toGiven heq, ih h.2 hmore⟩
    · cases hvalues

end Slots.FilledBy

end Given

/-! ## Records -/

/-- The values that the members of an object give for a field, in order. -/
def givenBy (members : List Member) : Field → List Json :=
  valuesIn (entries (.object members))

/-- What is read from an object is given by its members. -/
theorem given_of_readRecord {levels : Nat} {record : Record} {members : List Member}
    {value : record.Value} (h : readRecord (levels + 1) record (.object members) = .ok value) :
    (∀ member ∈ members, Tolerated record.fields member) ∧ ∃ values,
      Values.Given (readField levels) (givenBy members) record.fields values ∧
        record.make values = value := by
  rw [readRecord_succ] at h
  obtain ⟨slots, hslots, h⟩ := bind_eq_ok.1 h
  obtain ⟨values, hvalues, h⟩ := map_eq_ok.1 h
  have hempty : Slots.FilledBy (readField levels) (valuesIn []) record.fields _ :=
    Slots.FilledBy.empty record.fields
  obtain ⟨hfilled, htolerated⟩ := hempty.readMembers record.nodup_keys hslots
  exact ⟨htolerated, values, hfilled.values hvalues, h⟩

/-- A record is read from an object exactly if its members give the values of its fields, and all
else can be skipped. -/
theorem readRecord_object_iff {levels : Nat} {record : Record} {members : List Member}
    {value : record.Value} :
    readRecord (levels + 1) record (.object members) = .ok value ↔
      (∀ member ∈ members, Tolerated record.fields member) ∧ ∃ values,
        Values.Given (readField levels) (givenBy members) record.fields values ∧
          record.make values = value := by
  refine ⟨given_of_readRecord, fun ⟨htolerated, values, hvalues, hmake⟩ => ?_⟩
  have hgiven := hvalues.exists_value
  -- The record can be read, and what is read of it is given by the same members.
  obtain ⟨value', hread⟩ :
      ∃ value, readRecord (levels + 1) record (.object members) = .ok value := by
    refine exists_readRecord (fun member hmember => ?_) (fun field hfield => ?_)
      (fun field hfield => ?_) (fun field hfield entry hentry hkey => ?_)
      (fun entry hentry hkey => ?_)
    · obtain ⟨name, json, hpair, -⟩ := htolerated member hmember
      exact Option.isSome_iff_exists.2 ⟨_, hpair⟩
    · obtain ⟨v, hv⟩ := hgiven field hfield
      rw [names, ← length_valuesIn]
      exact hv.length_le
    · obtain ⟨v, hv⟩ := hgiven field hfield
      cases hvalues : givenBy members field with
      | nil =>
        rw [hvalues] at hv
        exact .inr (Option.isSome_iff_exists.2 ⟨v, hv⟩)
      | cons json more =>
        have hmem : json ∈ givenBy members field := hvalues ▸ List.mem_cons_self
        exact .inl (List.mem_map.2 ⟨_, mem_valuesIn.1 hmem, rfl⟩)
    · obtain ⟨v, hv⟩ := hgiven field hfield
      exact ⟨v, hv.read_of_mem (mem_valuesIn.2 (hkey ▸ hentry))⟩
    · obtain ⟨member, hmember, hpair⟩ := List.mem_filterMap.1 hentry
      obtain ⟨name, json, hname, hcomplete⟩ := htolerated member hmember
      obtain rfl : (name, json) = entry := Option.some.inj (hname.symm.trans hpair)
      exact (skip_eq_ok_iff json).2 (hcomplete hkey)
  obtain ⟨-, values', hvalues', hmake'⟩ := given_of_readRecord hread
  rw [hread, ← hmake', ← hmake, hvalues.eq hvalues']

section Change

variable {levels : Nat} {record : Record} {members members' : List Member} {value : record.Value}

/-- The same record is read from other members that give the same for each of its fields. -/
theorem readRecord_of_given (h : readRecord levels record (.object members) = .ok value)
    (tolerated : ∀ member ∈ members', member ∉ members → Tolerated record.fields member)
    (given : ∀ below, levels = below + 1 → ∀ field ∈ record.fields, ∀ v,
      field.kind.Given (readField below) (givenBy members field) v →
        field.kind.Given (readField below) (givenBy members' field) v) :
    readRecord levels record (.object members') = .ok value := by
  cases levels with
  -- Where no level may be opened, no object is read.
  | zero => cases h
  | succ below =>
    obtain ⟨htolerated, values, hvalues, hmake⟩ := readRecord_object_iff.1 h
    refine readRecord_object_iff.2 ⟨fun member hmember => ?_, values,
      hvalues.imp (given below rfl), hmake⟩
    by_cases hold : member ∈ members
    · exact htolerated member hold
    · exact tolerated member hmember hold

theorem givenBy_perm (perm : members.Perm members') (field : Field) :
    (givenBy members field).Perm (givenBy members' field) :=
  ((perm.filterMap _).filter _).map _

theorem givenBy_cons {member : Member} {entry : String × Json} (h : member.pair? = some entry)
    (field : Field) :
    givenBy (member :: members) field = valuesIn [entry] field ++ givenBy members field := by
  rw [givenBy, entries_cons h, ← List.singleton_append, valuesIn_append]
  rfl

/-- It does not matter in which order members stand. -/
theorem readRecord_perm (h : readRecord levels record (.object members) = .ok value)
    (perm : members.Perm members') : readRecord levels record (.object members') = .ok value := by
  refine readRecord_of_given h (fun member hnew hold => ?_) fun below _ field _ v hv => ?_
  · exact absurd (perm.mem_iff.2 hnew) hold
  · exact hv.perm (givenBy_perm perm field)

end Change

/-! ## Blank values -/

/-- The value that gives a field what it holds anyway when it is left out. -/
def Kind.blank? : Kind → Option Json
  | .optional _ => some .null
  | .list _ => some (.array [])
  | _ => none

section Blank

variable {levels : Nat} {kind : Kind} {json : Json} {value : kind.Value}

/-- A field that is given a blank value may as well be left out. -/
theorem default?_of_readField_blank (hblank : kind.blank? = some json)
    (h : readField levels kind json = .ok value) : kind.default? = some value := by
  cases kind with
  | optional kind =>
    obtain rfl : Json.null = json := Option.some.inj hblank
    obtain rfl : none = value := Except.ok.inj h
    rfl
  | list record =>
    obtain rfl : Json.array [] = json := Option.some.inj hblank
    cases levels with
    | zero => cases h
    | succ levels =>
      obtain rfl : [] = value := Except.ok.inj h
      rfl
  | text | instant | word32 | word64 | real | outcome | record _ => cases hblank

/-- A field that is left out may as well be given a blank value, as long as a level may be opened
for it. -/
theorem readField_blank (hblank : kind.blank? = some json) (hlevels : 0 < levels)
    (h : kind.default? = some value) : readField levels kind json = .ok value := by
  cases kind with
  | optional kind =>
    obtain rfl : Json.null = json := Option.some.inj hblank
    exact congrArg Except.ok (Option.some.inj h)
  | list record =>
    -- Unlike `null`, the empty list takes a level of its own.
    obtain rfl : Json.array [] = json := Option.some.inj hblank
    obtain ⟨levels, rfl⟩ := Nat.exists_eq_succ_of_ne_zero (Nat.ne_of_gt hlevels)
    exact congrArg Except.ok (Option.some.inj h)
  | text | instant | word32 | word64 | real | outcome | record _ => cases hblank

end Blank

end RunTrace.Format
