import RunTrace.Format.Reader
import RunTrace.Format.Writer
import RunTrace.Proofs.Format.Reread
import RunTrace.Proofs.Json.StringLiteral
import RunTrace.Proofs.Timestamps

/-!
# Fields, written and read

What a field holds is read from the value that is written for it, except that a double can become
another one. A record is read from any members that spell the values of its fields in order, where a
field that may be left out has no member if it holds what such a field holds anyway.

## Main results

* `readText_textValue`, `readInstant_text`, `readWord_wordValue`, `readOutcome_name`: values without
  fields are read as they were written;
* `readReal_realValue`: a double is read as what becomes of it;
* `Slots.readMembers_of_spells`: members that spell values are read as these values;
* `readRecord_of_spells`: so a record is read from them.
-/

namespace RunTrace.Format

/-! ## Values without fields -/

theorem readText_textValue (expected : Expected) (text : String) :
    readText expected (textValue text) = .ok text := by
  rw [textValue, readText, Json.StringLiteral.read_ofText]
  rfl

theorem readInstant_text (t : Timestamp) : readInstant (textValue t.text) = .ok t := by
  simp only [readInstant, readText_textValue, bind, Except.bind, Timestamp.read_text,
    Except.mapError]

/-- A word is read where its range allows it. -/
theorem readWord_wordValue {n bound : Nat} (h : n < bound) (hbound : bound ≤ UInt64.size)
    (expected : Expected) : readWord bound expected (wordValue n) = .ok n := by
  have hrange : 0 ≤ (n : Int) ∧ (n : Int) < bound := by omega
  rw [wordValue, readWord, Json.NumberLiteral.read_ofNat (Nat.lt_of_lt_of_le h hbound)]
  change (if 0 ≤ (n : Int) ∧ (n : Int) < bound then _ else _) = _
  rw [if_pos hrange]
  rfl

/-- What is read for a finite double. -/
theorem readReal_realValue {x : Float} (h : x.isFinite = true) :
    readReal (realValue x) = .ok (reread x) := by
  rw [realValue, if_pos h, readReal, Json.NumberLiteral.read_ofFloat h]
  rfl

theorem readOutcome_name (levels : Nat) (outcome : Outcome) :
    readOutcome levels (textValue outcome.name) = .ok outcome := by
  have hname : Outcome.ofName? outcome.name = some outcome := by cases outcome <;> decide
  rw [textValue, readOutcome, Json.StringLiteral.read_ofText]
  change readOutcomeName outcome.name = _
  rw [readOutcomeName, hname]

/-! ## Members -/

section Members

variable (read : (kind : Kind) → Json → Except ReadError kind.Value)

/-- The members of an object spell values for fields: in the order of the fields, each has a
member from which its value is read, or it is left out and its value is the default. -/
inductive Spells : (fields : List Field) → List Json.Member → Values fields → Prop
  | nil : Spells [] [] ()
  | present {field fields json members value values}
      (h : read field.kind json = .ok value) (rest : Spells fields members values) :
      Spells (field :: fields) (Format.field field.key json :: members) (value, values)
  | absent {field fields members value values}
      (h : field.kind.default? = some value) (rest : Spells fields members values) :
      Spells (field :: fields) members (value, values)

variable {read}

/-- The keys of members that spell values are those of the fields. -/
theorem Spells.key_mem {fields : List Field} {members : List Json.Member}
    {values : Values fields} (h : Spells read fields members values) :
    ∀ member ∈ members, ∃ key json, member = Format.field key json ∧
      key ∈ fields.map (·.key) := by
  induction h with
  | nil => exact fun member hmem => absurd hmem List.not_mem_nil
  | @present field fields json members value values hread rest ih =>
    intro member hmem
    rcases List.mem_cons.1 hmem with rfl | hmem
    · exact ⟨field.key, json, rfl, List.mem_cons_self⟩
    · obtain ⟨key, json, heq, hkey⟩ := ih member hmem
      exact ⟨key, json, heq, List.mem_cons_of_mem _ hkey⟩
  | absent hdefault rest ih =>
    intro member hmem
    obtain ⟨key, json, heq, hkey⟩ := ih member hmem
    exact ⟨key, json, heq, List.mem_cons_of_mem _ hkey⟩

/-- Members with other keys leave the slot of the first field as it is. -/
theorem Slots.readMembers_cons {field : Field} {fields : List Field}
    {members : List Json.Member}
    (h : ∀ member ∈ members, ∃ key json, member = Format.field key json ∧ key ≠ field.key)
    (slot : Option field.kind.Value) (slots : Slots fields) :
    readMembers read (field :: fields) (slot, slots) members =
      (slot, ·) <$> readMembers read fields slots members := by
  induction members generalizing slots with
  | nil => rfl
  | cons member members ih =>
    obtain ⟨hmember, hmembers⟩ := List.forall_mem_cons.1 h
    obtain ⟨key, json, rfl, hkey⟩ := hmember
    rw [Format.field, readMembers, readMembers, Json.StringLiteral.read_ofText]
    change (readMember read key json (field :: fields) (slot, slots) >>= _) =
      (slot, ·) <$> (readMember read key json fields slots >>= _)
    -- As the key is another one, the member is passed on to the fields behind the first.
    have hskip : readMember read key json (field :: fields) (slot, slots) =
        (slot, ·) <$> readMember read key json fields slots := by
      simp only [readMember, if_neg hkey.symm]
      rfl
    rw [hskip]
    cases readMember read key json fields slots with
    | error error => rfl
    | ok slots => exact ih hmembers slots

/-- Members that spell values for fields leave the slot of any other field as it is. -/
theorem Slots.readMembers_of_not_mem {field : Field} {fields : List Field}
    {members : List Json.Member} {values : Values fields}
    (h : Spells read fields members values) (hkey : field.key ∉ fields.map (·.key))
    (slot : Option field.kind.Value) (slots : Slots fields) :
    readMembers read (field :: fields) (slot, slots) members =
      (slot, ·) <$> readMembers read fields slots members := by
  refine readMembers_cons (fun member hmem => ?_) slot slots
  obtain ⟨key, json, heq, hmemkey⟩ := h.key_mem member hmem
  exact ⟨key, json, heq, fun hsame => hkey (hsame ▸ hmemkey)⟩

/-- Members that spell values are read as these values. -/
theorem Slots.readMembers_of_spells {fields : List Field} {members : List Json.Member}
    {values : Values fields} (hkeys : (fields.map (·.key)).Nodup)
    (h : Spells read fields members values) :
    ∃ slots, readMembers read fields (Slots.empty fields) members = .ok slots ∧
      Slots.values fields slots = .ok values := by
  induction h with
  | nil => exact ⟨(), rfl, rfl⟩
  | @present field fields json members value values hread rest ih =>
    obtain ⟨hkey, hkeys⟩ := List.nodup_cons.1 hkeys
    obtain ⟨slots, hslots, hvalues⟩ := ih hkeys
    have hfirst : readMember read field.key json (field :: fields) (none, Slots.empty fields) =
        .ok (some value, Slots.empty fields) := by
      simp only [readMember, if_pos, hread]
      rfl
    -- The first member fills the slot of its field, and no other member has its key.
    refine ⟨(some value, slots), ?_, ?_⟩
    · rw [Format.field, readMembers, Json.StringLiteral.read_ofText]
      change (readMember read field.key json (field :: fields) (none, Slots.empty fields)
        >>= _) = _
      rw [hfirst]
      change readMembers read (field :: fields) (some value, Slots.empty fields) members = _
      rw [readMembers_of_not_mem rest hkey, hslots]
      rfl
    · simp only [Slots.values, Option.orElse_some, hvalues]
      rfl
  | @absent field fields members value values hdefault rest ih =>
    obtain ⟨hkey, hkeys⟩ := List.nodup_cons.1 hkeys
    obtain ⟨slots, hslots, hvalues⟩ := ih hkeys
    -- No member has the key of a field that is left out, so its slot stays empty.
    refine ⟨(none, slots), ?_, ?_⟩
    · change readMembers read (field :: fields) (none, Slots.empty fields) members = _
      rw [readMembers_of_not_mem rest hkey, hslots]
      rfl
    · simp only [Slots.values, Option.orElse_none, hdefault, hvalues]
      rfl

end Members

/-! ## Records -/

/-- How a record in a list is read, where the given number of levels may be opened around the
list. -/
def readItem : Nat → (record : Record) → Json → Except ReadError record.Value
  | 0, _, _ => malformed .nestedTooDeep
  | levels + 1, record, value => readRecord levels record value

/-- How a field of a record is read, where the given number of levels may be opened in the
record. -/
def readField (levels : Nat) : (kind : Kind) → Json → Except ReadError kind.Value :=
  readKind levels (readRecord levels) (readItem levels)

/-- The fields of a record are read where one level less may be opened. -/
theorem readRecord_succ (levels : Nat) (record : Record) (value : Json) :
    readRecord (levels + 1) record value =
      match value with
      | .object members => do
        let slots ← Slots.readMembers (readField levels) record.fields
          (Slots.empty record.fields) members
        record.make <$> Slots.values record.fields slots
      | .array items => do
        let read ← Values.readItems (readField levels) record 0 record.fields items
        checkItemsEnd read.2
        return record.make read.1
      | other => wrongType (.record record) other := by
  cases levels <;> cases value <;> rfl

/-- No record has two fields with the same key. -/
theorem Record.nodup_keys (record : Record) : (record.fields.map (·.key)).Nodup := by
  cases record <;> decide

/-- A record is read from members that spell the values of its fields. -/
theorem readRecord_of_spells {levels : Nat} {record : Record} {members : List Json.Member}
    {values : Values record.fields} (h : Spells (readField levels) record.fields members values) :
    readRecord (levels + 1) record (.object members) = .ok (record.make values) := by
  obtain ⟨slots, hslots, hvalues⟩ := Slots.readMembers_of_spells record.nodup_keys h
  rw [readRecord_succ]
  simp only [hslots]
  change record.make <$> Slots.values record.fields slots = _
  rw [hvalues]
  rfl

end RunTrace.Format
