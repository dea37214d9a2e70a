import RunTrace.Proofs.Format.RoundTrip

/-!
# Trees that are too high to be read again

A trajectory can have any number of levels, but only so many arrays and objects of its text may be
open at the same time. Each level of a tree takes two of them, and the tokens of a subcall take
another one, which leaves room for 62 levels. The text of a higher tree is read up to the first
subcall that is too far down, and the error is found there.

## Main results

* `readRecord_of_breaks`: a record is not read if the members before some field spell values, and
  what is written for that field is not read;
* `mapM_readRecord_subcallValues_tooDeep`: a forest is not read from the objects of its trees if
  there are not two levels of the text for each of its own;
* `load_nesting`: nothing that is loaded is higher than 62 levels, and no higher trajectory can be
  loaded from its text, valid or not.
-/

namespace RunTrace

namespace Format

/-! ## Records that break off -/

section Breaks

variable (read : (kind : Kind) → Json → Except ReadError kind.Value)

/-- Members of an object spell values for fields up to the last of them, from which no value is
read. A field before it may be left out. -/
inductive Breaks (error : ReadError) : (fields : List Field) → List Json.Member → Prop
  | here {field fields json} (h : read field.kind json = .error error) :
      Breaks error (field :: fields) [Format.field field.key json]
  | present {field fields json members value} (h : read field.kind json = .ok value)
      (rest : Breaks error fields members) :
      Breaks error (field :: fields) (Format.field field.key json :: members)
  | absent {field fields members} (rest : Breaks error fields members) :
      Breaks error (field :: fields) members

variable {read} {error : ReadError}

/-- The keys of the members are those of fields. -/
theorem Breaks.key_mem {fields : List Field} {members : List Json.Member}
    (h : Breaks read error fields members) :
    ∀ member ∈ members, ∃ key json, member = Format.field key json ∧
      key ∈ fields.map (·.key) := by
  induction h with
  | @here field fields json hread =>
    intro member hmem
    exact ⟨field.key, json, List.mem_singleton.1 hmem, List.mem_cons_self⟩
  | @present field fields json members value hread rest ih =>
    intro member hmem
    rcases List.mem_cons.1 hmem with rfl | hmem
    · exact ⟨field.key, json, rfl, List.mem_cons_self⟩
    · obtain ⟨key, json, heq, hkey⟩ := ih member hmem
      exact ⟨key, json, heq, List.mem_cons_of_mem _ hkey⟩
  | absent rest ih =>
    intro member hmem
    obtain ⟨key, json, heq, hkey⟩ := ih member hmem
    exact ⟨key, json, heq, List.mem_cons_of_mem _ hkey⟩

/-- Members that break off leave the slot of any other field as it is. -/
theorem Slots.readMembers_cons_of_breaks {field : Field} {fields : List Field}
    {members : List Json.Member} (h : Breaks read error fields members)
    (hkey : field.key ∉ fields.map (·.key)) (slot : Option field.kind.Value)
    (slots : Slots fields) :
    readMembers read (field :: fields) (slot, slots) members =
      (slot, ·) <$> readMembers read fields slots members := by
  refine readMembers_cons (fun member hmem => ?_) slot slots
  obtain ⟨key, json, heq, hmemkey⟩ := h.key_mem member hmem
  exact ⟨key, json, heq, fun hsame => hkey (hsame ▸ hmemkey)⟩

/-- A member with the key of the first field is read into its slot if that is empty. -/
theorem Slots.readMembers_first (field : Field) {fields : List Field} (json : Json)
    (slots : Slots fields) (members : List Json.Member) :
    readMembers read (field :: fields) (none, slots) (Format.field field.key json :: members) =
      read field.kind json >>= fun value =>
        readMembers read (field :: fields) (some value, slots) members := by
  rw [Format.field, readMembers, Json.StringLiteral.read_ofText]
  change (readMember read field.key json (field :: fields) (none, slots) >>= _) = _
  simp only [readMember, if_pos]
  cases read field.kind json <;> rfl

/-- A second member with the key of the first field is an error. -/
theorem Slots.readMembers_twice (field : Field) {json : Json} {value : field.kind.Value}
    (h : read field.kind json = .ok value) {fields : List Field} (slots : Slots fields)
    (other : Json) (members : List Json.Member) :
    readMembers read (field :: fields) (none, slots)
        (Format.field field.key json :: Format.field field.key other :: members) =
      .error (.duplicateField field.key) := by
  rw [readMembers_first, h]
  change readMembers read (field :: fields) (some value, slots) _ = _
  rw [Format.field, readMembers, Json.StringLiteral.read_ofText]
  change (readMember read field.key other (field :: fields) (some value, slots) >>= _) = _
  simp only [readMember, if_pos]
  rfl

/-- Members that break off are read up to the last of them. -/
theorem Slots.readMembers_of_breaks {fields : List Field} {members : List Json.Member}
    (hkeys : (fields.map (·.key)).Nodup) (h : Breaks read error fields members) :
    readMembers read fields (Slots.empty fields) members = .error error := by
  induction h with
  | @here field fields json hread =>
    rw [Slots.empty, readMembers_first, hread]
    rfl
  | @present field fields json members value hread rest ih =>
    obtain ⟨hkey, hkeys⟩ := List.nodup_cons.1 hkeys
    rw [Slots.empty, readMembers_first, hread]
    change readMembers read (field :: fields) (some value, Slots.empty fields) members = _
    rw [readMembers_cons_of_breaks rest hkey, ih hkeys]
    rfl
  | @absent field fields members rest ih =>
    obtain ⟨hkey, hkeys⟩ := List.nodup_cons.1 hkeys
    rw [Slots.empty, readMembers_cons_of_breaks rest hkey, ih hkeys]
    rfl

/-- What follows an error is not read. -/
theorem Slots.readMembers_append_of_error {fields : List Field} {slots : Slots fields}
    {members : List Json.Member} (h : readMembers read fields slots members = .error error)
    (more : List Json.Member) :
    readMembers read fields slots (members ++ more) = .error error := by
  induction members generalizing slots with
  | nil => exact nomatch h
  | cons member members ih =>
    cases member with
    | torn tear => exact h
    | member key value =>
      rw [List.cons_append, readMembers]
      rw [readMembers] at h
      -- Only where the first member is read does the error come from the others.
      cases hkey : liftJson key.read with
      | error first =>
        rw [hkey] at h
        exact h
      | ok text =>
        cases hmember : readMember read text value fields slots with
        | error first =>
          simp only [hkey, hmember, bind, Except.bind] at h ⊢
          exact h
        | ok next =>
          simp only [hkey, hmember, bind, Except.bind] at h ⊢
          exact ih h

end Breaks

/-- A record is not read from members that break off, whatever follows them. -/
theorem readRecord_of_breaks {levels : Nat} {record : Record} {members : List Json.Member}
    {error : ReadError} (h : Breaks (readField levels) error record.fields members)
    (more : List Json.Member) :
    readRecord (levels + 1) record (.object (members ++ more)) = .error error := by
  have hmembers := Slots.readMembers_of_breaks record.nodup_keys h
  rw [readRecord_succ]
  simp only [Slots.readMembers_append_of_error hmembers more]
  rfl

/-- An optional field in front of the break is spelled by its member, or by none. -/
theorem Breaks.optional {read : (kind : Kind) → Json → Except ReadError kind.Value}
    {error : ReadError} {fields : List Field} {members : List Json.Member} {key : String}
    (kind : Kind) {write : kind.Value → Json}
    (hread : ∀ value, read (.optional kind) (write value) = .ok (some value))
    (value? : Option kind.Value) (rest : Breaks read error fields members) :
    Breaks read error (⟨key, .optional kind⟩ :: fields)
      (optionalField key (value?.map write) ++ members) := by
  cases value? with
  | none => exact .absent rest
  | some value => exact .present (hread value) rest

/-! ## Trees -/

/-- The error of a text in which too many arrays and objects are open. -/
def tooDeep : ReadError := .malformed .nestedTooDeep

/-- Where only the object of a subcall may be opened, its tokens are too deep. -/
theorem readRecord_subcallValue_tokens (call : Call) (items : List Json) :
    readRecord 1 .subcall (subcallValue call items) = .error tooDeep := by
  have htokens : readField 0 (.record .tokenCounts) (tokensValue call.tokens) =
      .error tooDeep := rfl
  have hbreaks : Breaks (readField 0) tooDeep Record.subcall.fields _ :=
    .present (readField_text _ call.id) <|
    .present (readField_word32 _ call.depth) <|
    .present (readField_text _ call.name) <|
    .present (readField_outcome _ call.outcome) <|
    .present (readField_instant _ call.startedAt) <|
    .optional .instant (fun t => readField_optional _ (readField_instant _ t)) call.completedAt <|
    .present (readField_word64 _ call.durationMs) <|
    .here htokens
  have herror := readRecord_of_breaks hbreaks
    ([field "cost" (realValue call.cost),
      field "toolCalls" (.array (call.toolCalls.map toolCallValue)),
      field "children" (.array items)] ++ optionalField "error" (call.error.map textValue))
  simp only [List.append_assoc, List.cons_append, List.nil_append] at herror
  simpa only [subcallValue, List.append_assoc, List.cons_append, List.nil_append] using herror

/-- A subcall is not read if its children are not. -/
theorem readRecord_subcallValue_children {levels : Nat} {call : Call} {items : List Json}
    {error : ReadError} (hcost : call.cost.isFinite = true)
    (hitems : items.mapM (readRecord (levels + 1) .subcall) = .error error) :
    readRecord (levels + 3) .subcall (subcallValue call items) = .error error := by
  have htokens : readField (levels + 2) (.record .tokenCounts) (tokensValue call.tokens) =
      .ok call.tokens := readRecord_tokensValue (levels + 1) call.tokens
  have htools : readField (levels + 2) (.list .toolCall)
      (.array (call.toolCalls.map toolCallValue)) = .ok call.toolCalls := by
    rw [readField_list]
    exact mapM_map_eq_ok fun tool _ => readRecord_toolCallValue levels tool
  have hchildren : readField (levels + 2) (.list .subcall) (.array items) = .error error := by
    rw [readField_list, hitems]
  have hbreaks : Breaks (readField (levels + 2)) error Record.subcall.fields _ :=
    .present (readField_text _ call.id) <|
    .present (readField_word32 _ call.depth) <|
    .present (readField_text _ call.name) <|
    .present (readField_outcome _ call.outcome) <|
    .present (readField_instant _ call.startedAt) <|
    .optional .instant (fun t => readField_optional _ (readField_instant _ t)) call.completedAt <|
    .present (readField_word64 _ call.durationMs) <|
    .present htokens <|
    .present (readField_real _ hcost) <|
    .present htools <|
    .here hchildren
  have herror := readRecord_of_breaks hbreaks (optionalField "error" (call.error.map textValue))
  simp only [List.append_assoc, List.cons_append, List.nil_append] at herror
  simpa only [subcallValue, List.append_assoc, List.cons_append, List.nil_append] using herror

/-- A forest is not read from the objects of its trees if there is room for fewer levels than it
has. -/
theorem mapM_readRecord_subcallValues_tooDeep {forest : Forest Call} {levels : Nat}
    (h : levels < forest.height)
    (hcosts : ∀ call ∈ forest.toList, call.cost.isFinite = true) :
    (subcallValues forest).mapM (readRecord (2 * levels + 1) .subcall) = .error tooDeep := by
  induction forest generalizing levels with
  | nil => exact absurd h (Nat.not_lt_zero levels)
  | cons call children rest ihc ihr =>
    simp only [Forest.height] at h
    simp only [Forest.toList, List.forall_mem_cons, List.forall_mem_append] at hcosts
    obtain ⟨hcost, hbelow, hbehind⟩ := hcosts
    rw [subcallValues, List.mapM_cons]
    rcases levels with _ | levels
    · rw [readRecord_subcallValue_tokens]
      rfl
    · rw [show 2 * (levels + 1) + 1 = 2 * levels + 3 by omega]
      -- The error is found below the first tree if that is too high, and otherwise behind it.
      by_cases hhigh : levels < children.height
      · rw [readRecord_subcallValue_children hcost (ihc hhigh hbelow)]
        rfl
      · have hchildren : (subcallValues children).mapM (readRecord (2 * levels + 1) .subcall) =
            .ok (children.map Call.reread).trees :=
          mapM_readRecord_subcallValues (by omega) hbelow
        have hbehind_high : levels + 1 < rest.height := by omega
        have hrest : (subcallValues rest).mapM (readRecord (2 * levels + 3) .subcall) =
            .error tooDeep := ihr hbehind_high hbehind
        rw [readRecord_subcallValue hcost hchildren]
        change ((subcallValues rest).mapM (readRecord (2 * levels + 3) .subcall)
          >>= fun trees => pure (⟨call.reread, children.map Call.reread⟩ :: trees)) = _
        rw [hrest]
        rfl

/-- A trajectory is not read from its object if its trees are too high. -/
theorem readRecord_trajectoryValue_tooDeep {trajectory : Trajectory}
    (htotal : trajectory.totalCost.isFinite = true)
    (hcosts : ∀ call ∈ trajectory.subcalls.toList, call.cost.isFinite = true)
    (h : maxHeight < trajectory.subcalls.height) :
    readRecord nestingLimit .trajectory (trajectoryValue trajectory) = .error tooDeep := by
  have htokens : readField 126 (.record .tokenCounts) (tokensValue trajectory.totalTokens) =
      .ok trajectory.totalTokens := readRecord_tokensValue 125 trajectory.totalTokens
  have hsubcalls : readField 126 (.list .subcall)
      (.array (subcallValues trajectory.subcalls)) = .error tooDeep :=
    mapM_readRecord_subcallValues_tooDeep h hcosts
  have hbreaks : Breaks (readField 126) tooDeep Record.trajectory.fields _ :=
    .present (readField_text _ trajectory.runId) <|
    .present (readField_word32 _ trajectory.totalSubcalls) <|
    .present (readField_word32 _ trajectory.maxDepth) <|
    .present htokens <|
    .present (readField_real _ htotal) <|
    .present (readField_word64 _ trajectory.totalDurationMs) <|
    .here hsubcalls
  exact readRecord_of_breaks hbreaks []

/-- A trajectory is not read from its text if its trees are too high. -/
theorem read_write_tooDeep {trajectory : Trajectory}
    (htotal : trajectory.totalCost.isFinite = true)
    (hcosts : ∀ call ∈ trajectory.subcalls.toList, call.cost.isFinite = true)
    (h : maxHeight < trajectory.subcalls.height) :
    read (write trajectory) = .error tooDeep := by
  rw [read, write, Json.ofText_text (spellable_trajectoryValue trajectory), readDocument,
    readRecord_trajectoryValue_tooDeep htotal hcosts h]
  rfl

end Format

open Format

/-- A valid trajectory with a finite total cost that has a subcall on level 62 or further down is
not loaded from its text. -/
theorem load_write_tooDeep {trajectory : Trajectory} (hvalid : trajectory.validate = .ok ())
    (htotal : trajectory.totalCost.isFinite = true) {place : List Nat} {subcall : Subcall}
    (hplace : trajectory.subcalls.at? place = some subcall) (hdeep : 62 ≤ place.length - 1) :
    Trajectory.load (write trajectory) = .error (.unreadable tooDeep) := by
  have hheight : maxHeight < trajectory.subcalls.height := by
    have := Forest.length_le_height hplace
    simp only [maxHeight]
    omega
  rw [Trajectory.load, Trajectory.parse,
    read_write_tooDeep htotal (isFinite_of_validate hvalid) hheight]
  rfl

/-- A valid trajectory of 63 levels. -/
def tallTrajectory : Trajectory :=
  { demoTrajectory with subcalls := DemoTrajectory.chain 0 63 }

theorem validate_tallTrajectory : tallTrajectory.validate = .ok () := by
  decide +kernel

theorem isFinite_tallTrajectory : tallTrajectory.totalCost.isFinite = true := by
  decide +kernel

theorem exists_at?_tallTrajectory :
    ∃ subcall, tallTrajectory.subcalls.at? (List.replicate 63 0) = some subcall := by
  refine Option.isSome_iff_exists.1 ?_
  decide +kernel

/-- Whatever text is loaded, no subcall in it is more than 61 levels down. A valid trajectory with
a finite total cost in which one is further down can be written, but reading its text stops at the
limit of the nesting. So there are valid trajectories that cannot be loaded again. -/
theorem load_nesting :
    (∀ text trajectory, Trajectory.load text = .ok trajectory →
      ∀ place subcall, trajectory.subcalls.at? place = some subcall → place.length - 1 ≤ 61) ∧
    (∀ trajectory : Trajectory, trajectory.validate = .ok () →
      trajectory.totalCost.isFinite = true →
      (∃ place subcall, trajectory.subcalls.at? place = some subcall ∧ 62 ≤ place.length - 1) →
      ∃ error, Trajectory.load (write trajectory) = .error (.unreadable error) ∧
        error = .malformed .nestedTooDeep ∧ error.message = "recursion limit exceeded") ∧
    ∃ trajectory : Trajectory, trajectory.validate = .ok () ∧
      ∀ other, Trajectory.load (write trajectory) ≠ .ok other := by
  refine ⟨?_, ?_, ?_⟩
  · intro text trajectory hload place subcall hplace
    have hheight := (writable_of_read (load_eq_ok hload).1).height
    have hlength := Forest.length_le_height hplace
    simp only [maxHeight] at hheight
    omega
  · rintro trajectory hvalid htotal ⟨place, subcall, hplace, hdeep⟩
    exact ⟨tooDeep, load_write_tooDeep hvalid htotal hplace hdeep, rfl, rfl⟩
  · obtain ⟨subcall, hplace⟩ := exists_at?_tallTrajectory
    have hload := load_write_tooDeep validate_tallTrajectory isFinite_tallTrajectory hplace
      (by decide)
    refine ⟨tallTrajectory, validate_tallTrajectory, fun other => ?_⟩
    simp [hload]

/-- The demo trajectory is loaded, so none of its subcalls is too far down; 63 levels are too
many. -/
theorem load_nesting_demo :
    (Trajectory.load (write demoTrajectory) = .ok demoTrajectory ∧
      ∀ place subcall, demoTrajectory.subcalls.at? place = some subcall →
        place.length - 1 ≤ 61) ∧
    tallTrajectory.validate = .ok () ∧ tallTrajectory.totalCost.isFinite = true ∧
      (∃ subcall, tallTrajectory.subcalls.at? (List.replicate 63 0) = some subcall) ∧
      ∃ error, Trajectory.load (write tallTrajectory) = .error (.unreadable error) ∧
        error = .malformed .nestedTooDeep ∧ error.message = "recursion limit exceeded" := by
  have hload := load_demoTrajectory demoTrajectory.runId
  obtain ⟨subcall, hplace⟩ := exists_at?_tallTrajectory
  obtain ⟨hloaded, hdeep, -⟩ := load_nesting
  exact ⟨⟨hload, hloaded _ _ hload⟩, validate_tallTrajectory, isFinite_tallTrajectory,
    ⟨subcall, hplace⟩, hdeep tallTrajectory validate_tallTrajectory isFinite_tallTrajectory
      ⟨_, subcall, hplace, by decide⟩⟩

end RunTrace
