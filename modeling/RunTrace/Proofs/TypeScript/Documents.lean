import RunTrace.Proofs.Format.NestingLimit
import RunTrace.Proofs.TypeScript.Readable

/-!
# Documents and declared types

The documents that are written are of the type that is declared for trajectories, and documents of
this type are read.

## Main results

* `documents_typed`: both directions, with what is asked of a document in addition to its type.
-/

namespace RunTrace.TypeScript

open Json Format

/-! ## What is asked of values -/

section

variable {cost : NumberLiteral → Prop}

/-- The rules are kept by an object with nothing but properties of which the values are admissible,
none of them twice. -/
theorem single_and_readable {properties : List Property} {members : List Member}
    (hsingle : single properties members)
    (hentries : ∀ entry ∈ entries (.object members),
      entry.1 ∈ properties.map (·.name) ∧ Admissible cost entry.1 entry.2) :
    single.and (readable cost) properties members := by
  refine ⟨hsingle, fun entry hmem => ?_⟩
  obtain ⟨hname, admissible⟩ := hentries entry hmem
  rw [if_pos hname]
  exact admissible

theorem admissible_number {name : String} {literal : NumberLiteral} :
    Admissible cost name (.number literal) ↔
      (name ∈ ["depth", "totalSubcalls", "maxDepth"] → IsNatural UInt32.size literal) ∧
      (name ∈ ["durationMs", "totalDurationMs", "input", "output"] →
        IsNatural UInt64.size literal) ∧
      (name ∈ ["cost", "totalCost"] → cost literal) := by
  constructor
  · intro h
    exact ⟨fun hname => h.word32 hname literal rfl, fun hname => h.word64 hname literal rfl,
      fun hname => h.cost hname literal rfl⟩
  · rintro ⟨hword32, hword64, hcost⟩
    constructor <;> simp_all

theorem admissible_textValue {name text : String} :
    Admissible cost name (textValue text) ↔
      (name ∈ ["startedAt", "completedAt"] → ∃ t, Timestamp.read text = .ok t) := by
  constructor
  · intro h hname
    exact h.timestamp hname _ text rfl (StringLiteral.read_ofText text)
  · intro htime
    refine ⟨nofun, nofun, nofun, fun hname literal other heq hread => ?_⟩
    obtain rfl : StringLiteral.ofText text = literal := Json.string.inj heq
    obtain rfl := Except.ok.inj ((StringLiteral.read_ofText text).symm.trans hread)
    exact htime hname

/-- Nothing else is asked of values that are no numbers and no strings. -/
theorem admissible_of_ne {name : String} {value : Json}
    (hnumber : ∀ literal, value ≠ .number literal)
    (hstring : ∀ literal, value ≠ .string literal) : Admissible cost name value := by
  constructor <;> simp_all

theorem isNatural_ofNat {n bound : Nat} : IsNatural bound (.ofNat n) ↔ n < bound := by
  simp [IsNatural, NumberLiteral.ofNat, Decimal.natOfDigits_digits]

theorem admissible_wordValue {name : String} {n : Nat} (hcost : name ∉ ["cost", "totalCost"])
    (h : n < UInt32.size) : Admissible cost name (wordValue n) :=
  admissible_number.2 ⟨fun _ => isNatural_ofNat.2 h,
    fun _ => isNatural_ofNat.2 (Nat.lt_trans h (by decide)), fun hname => absurd hname hcost⟩

end

/-! ## A document of another program -/

namespace Recorded

/-- Token counts. -/
def tokens : Json :=
  .object [field "input" (wordValue 100), field "output" (wordValue 20)]

/-- A subcall that is still running: it is null when it was completed. -/
def subcall : Json :=
  .object [field "id" (textValue "root"), field "depth" (wordValue 0),
    field "name" (textValue "run"), field "outcome" (textValue "running"),
    field "startedAt" (textValue "2026-02-20T10:00:00Z"), field "completedAt" .null,
    field "durationMs" (wordValue 7), field "tokens" tokens, field "cost" (wordValue 1),
    field "toolCalls" (.array []), field "children" (.array [])]

/-- The total cost: a hundredth, with an exponent. -/
def totalCost : NumberLiteral :=
  { negative := false, whole := ['1'], fraction := none, exponent := some (.minus, ['2']) }

/-- A document with the members of a trajectory in another order, and one that is not declared. -/
def document : Json :=
  .object [field "recorder" (.array [.null]), field "runId" (textValue "run-1"),
    field "totalTokens" tokens, field "totalSubcalls" (wordValue 1),
    field "maxDepth" (wordValue 0), field "totalCost" (.number totalCost),
    field "subcalls" (.array [subcall]), field "totalDurationMs" (wordValue 7)]

theorem readsFinite_totalCost : ReadsFinite totalCost := by
  rw [ReadsFinite]
  decide +kernel

theorem totalCost_le : totalCost.magnitude.value ≤ 1 := by
  have hvalue : totalCost.magnitude = ⟨1, -2⟩ := by decide
  rw [hvalue, Decimal.value]
  norm_num

theorem inhabits_tokens (cost : NumberLiteral → Prop) :
    Inhabits (single.and (readable cost)) (.reference "TokenCounts") tokens :=
  .of_fills rfl (by decide) single_and_readable <|
    .present (inhabits_wordValue _) (admissible_wordValue (by decide) (by decide)) <|
    .present (inhabits_wordValue _) (admissible_wordValue (by decide) (by decide)) .nil

theorem inhabits_subcall : Inhabits accepted (.reference "Subcall") subcall := by
  have hstarted : ∃ t, Timestamp.read "2026-02-20T10:00:00Z" = .ok t :=
    ⟨⟨⟨2026, 2, 20, by decide⟩, 36000, 0, by decide, by decide⟩, rfl⟩
  have hcost : ReadsFinite (.ofNat 1) := by
    rw [ReadsFinite]
    decide +kernel
  -- The members are in the order of the declaration, and the error is absent.
  exact .of_fills rfl (by decide) single_and_readable <|
    .present (inhabits_textValue _) (admissible_textValue.2 (absurd · (by decide))) <|
    .present (inhabits_wordValue _) (admissible_wordValue (by decide) (by decide)) <|
    .present (inhabits_textValue _) (admissible_textValue.2 (absurd · (by decide))) <|
    .present (inhabits_outcomeName .running) (admissible_textValue.2 (absurd · (by decide))) <|
    .present (inhabits_textValue _) (admissible_textValue.2 fun _ => hstarted) <|
    .present (.right .null) (admissible_of_ne nofun nofun) <|
    .present (inhabits_wordValue _) (admissible_wordValue (by decide) (by decide)) <|
    .present (inhabits_tokens ReadsFinite) (admissible_of_ne nofun nofun) <|
    .present (inhabits_wordValue _) (admissible_number.2
      ⟨(absurd · (by decide)), (absurd · (by decide)), fun _ => hcost⟩) <|
    .present (.array nofun) (admissible_of_ne nofun nofun) <|
    .present (.array nofun) (admissible_of_ne nofun nofun) <|
    .absent rfl .nil

theorem inhabits_document : Inhabits accepted (.reference "Trajectory") document := by
  have hrecorder : Complete (.array [.null]) := ⟨trivial, trivial⟩
  have hrun : Admissible ReadsFinite "runId" (textValue "run-1") :=
    admissible_textValue.2 (absurd · (by decide))
  have htokens : Admissible ReadsFinite "totalTokens" tokens := admissible_of_ne nofun nofun
  have htotal := readsFinite_totalCost
  have hsubcalls : Admissible ReadsFinite "subcalls" (.array [subcall]) :=
    admissible_of_ne nofun nofun
  -- The members are in another order than the properties, so each condition is shown for itself.
  refine .object rfl ?_ ?_ ⟨?_, ?_⟩ ?_
  · simp
  · simp [property, names, entries]
  · simp [single, property, names, entries]
  · simp [property, entries, readable, wordValue, admissible_number, isNatural_ofNat, UInt32.size,
      UInt64.size, hrecorder, hrun, htokens, htotal, hsubcalls]
  · simp [property, entries, inhabits_wordValue, inhabits_textValue, inhabits_tokens,
      Inhabits.number, inhabits_array, inhabits_subcall]

theorem spellable_tokens : Spellable tokens :=
  spellable_object (by simp [spellable_field, spellable_wordValue])

theorem spellable_totalCost : totalCost.Spellable := by
  have hdigits : ∀ c : Char, c.isDigit = true → Decimal.IsDigits [c] :=
    fun c hc => ⟨List.cons_ne_nil _ _, by simpa using hc⟩
  exact ⟨hdigits '1' (by decide), by simp [totalCost], by simp [totalCost],
    by simpa [totalCost] using hdigits '2' (by decide)⟩

theorem spellable_document : Spellable document := by
  have hnull : Spellable .null := trivial
  have hempty : Spellable (.array []) := trivial
  have htokens := spellable_tokens
  have htotal : Spellable (.number totalCost) := spellable_totalCost
  have hsubcall : Spellable subcall := spellable_object (by
    simp [spellable_field, spellable_wordValue, spellable_textValue, htokens,
      spellable_field _ hnull, spellable_field _ hempty])
  have hitems : Spellable (.array [subcall]) := spellable_array (by simpa using hsubcall)
  have hrecorder : Spellable (.array [.null]) := spellable_array (by simpa using hnull)
  exact spellable_object (by
    simp [spellable_field, spellable_wordValue, spellable_textValue, htokens,
      spellable_field _ htotal, spellable_field _ hitems, spellable_field _ hrecorder])

/-- The only subcall of the document is a root. -/
theorem depth_of_isNode {depth : Nat} {node : Json} (h : IsNode document depth node) :
    depth = 0 ∧ node = subcall := by
  induction h with
  | root list mem =>
    obtain rfl : _ = [subcall] := by simpa [document, entries] using list
    exact ⟨rfl, List.mem_singleton.1 mem⟩
  | child above list mem ih =>
    obtain ⟨-, rfl⟩ := ih
    obtain rfl : _ = [] := by simpa [subcall, entries] using list
    exact absurd mem List.not_mem_nil

end Recorded

/-! ## Both directions -/

/-- A text that is read may be invalid, but it is not unreadable. -/
theorem load_ne_unreadable {text : String} {trajectory : Trajectory}
    (h : Trajectory.parse text = .ok trajectory) (error : ReadError) :
    Trajectory.load text ≠ .error (.unreadable error) := by
  rw [Trajectory.load, h]
  change (trajectory.validate.mapError LoadError.invalid >>= fun _ => pure trajectory) ≠ _
  cases trajectory.validate with
  | ok => simp [Except.mapError, bind, Except.bind, pure, Except.pure]
  | error fault => simp [Except.mapError, bind, Except.bind]

/-- The documents that are written and read are those of the declared types. What is written for a
trajectory that is loaded is of its type to the letter: it has all members that have to be there and
only such as are declared, none of them twice, and none of them is null. Conversely, a document of
the declared type is read, whatever the order of its members is and whatever else it has, if no
declared member is given twice, its numbers that count something are words, its costs are read as
finite doubles, its timestamps are such, nothing breaks off in its other members, and no subcall is
more than 61 levels down. All costs but those among the very largest are read as finite doubles. -/
theorem documents_typed :
    (∀ text trajectory, Trajectory.load text = .ok trajectory →
      ∃ document, Document.ofText (write trajectory).toList = ⟨document, false⟩ ∧
        Inhabits exact (.reference "Trajectory") document) ∧
    (∀ text document, Document.ofText text.toList = ⟨document, false⟩ →
      Inhabits (single.and (readable ReadsFinite)) (.reference "Trajectory") document →
      (∀ depth node, IsNode document depth node → depth ≤ 61) →
      (∃ trajectory, Trajectory.parse text = .ok trajectory) ∧
        ∀ error, Trajectory.load text ≠ .error (.unreadable error)) ∧
    ∀ literal : NumberLiteral, literal.Spellable →
      literal.magnitude.value ≤ Decimal.safeMagnitude → ReadsFinite literal := by
  refine ⟨?_, ?_, ?_⟩
  · intro text trajectory hload
    -- No cost that is loaded is infinite, so none is written as null.
    have hwritable := writable_of_read (load_eq_ok hload).1
    exact ⟨trajectoryValue trajectory, Json.ofText_text (spellable_trajectoryValue trajectory),
      inhabits_trajectoryValue hwritable.totalCost hwritable.costs⟩
  · intro text document htext typed deep
    obtain ⟨trajectory, htrajectory⟩ := exists_readRecord_trajectory typed deep
    have hparse : Trajectory.parse text = .ok trajectory := by
      rw [Trajectory.parse, Format.read, htext, readDocument, htrajectory]
      rfl
    exact ⟨⟨trajectory, hparse⟩, fun error => load_ne_unreadable hparse error⟩
  · intro literal spellable hsafe
    exact literal.isFinite_toFloat_of_safe spellable.whole.digit hsafe

/-- The demo trajectory is written as a document of its type, the document of another program is
read, and its total cost is safe. -/
theorem documents_typed_demo :
    (Trajectory.load (write demoTrajectory) = .ok demoTrajectory ∧
      ∃ document, Document.ofText (write demoTrajectory).toList = ⟨document, false⟩ ∧
        Inhabits exact (.reference "Trajectory") document) ∧
    (Document.ofText Recorded.document.text.toList = ⟨Recorded.document, false⟩ ∧
      Inhabits (single.and (readable ReadsFinite)) (.reference "Trajectory") Recorded.document ∧
      (∀ depth node, IsNode Recorded.document depth node → depth ≤ 61) ∧
      ∃ trajectory, Trajectory.parse Recorded.document.text = .ok trajectory) ∧
    Recorded.totalCost.Spellable ∧
      Recorded.totalCost.magnitude.value ≤ Decimal.safeMagnitude ∧
      ReadsFinite Recorded.totalCost := by
  have hload := load_demoTrajectory demoTrajectory.runId
  have htext := ofText_text Recorded.spellable_document
  have hdeep : ∀ depth node, IsNode Recorded.document depth node → depth ≤ 61 :=
    fun depth node hnode => by
      obtain ⟨rfl, -⟩ := Recorded.depth_of_isNode hnode
      exact Nat.zero_le 61
  have hsafe : Recorded.totalCost.magnitude.value ≤ Decimal.safeMagnitude :=
    Recorded.totalCost_le.trans
      ((one_le_pow₀ (by norm_num)).trans NumberLiteral.two_pow_le_safeMagnitude)
  obtain ⟨hwritten, hread, hfinite⟩ := documents_typed
  have hparse := (hread _ _ htext Recorded.inhabits_document hdeep).1
  exact ⟨⟨hload, hwritten _ _ hload⟩, ⟨htext, Recorded.inhabits_document, hdeep, hparse⟩,
    Recorded.spellable_totalCost, hsafe, hfinite _ Recorded.spellable_totalCost hsafe⟩

/-! ## Documents of the declared type that are not read -/

/-- A number that is not larger than the largest double. -/
def InRange (literal : NumberLiteral) : Prop :=
  literal.magnitude.value ≤ Packing.largest

/-- There are no subcalls in a document with an empty list of them. -/
theorem not_isNode {document : Json}
    (h : ∀ items, ("subcalls", .array items) ∈ document.entries → items = []) {depth : Nat}
    {node : Json} : ¬ IsNode document depth node := by
  intro hnode
  induction hnode with
  | root list mem =>
    rw [h _ list] at mem
    exact absurd mem List.not_mem_nil
  | child _ _ _ ih => exact ih

/-- A document that is not read is not parsed. -/
theorem parse_eq_error {document : Json} (spellable : Spellable document) {error : ReadError}
    (h : readRecord nestingLimit .trajectory document = .error error) :
    Trajectory.parse document.text = .error (.unreadable error) := by
  rw [Trajectory.parse, Format.read, ofText_text spellable, readDocument, h]
  rfl

namespace Recorded

/-- A total cost that is a little smaller than the largest double. -/
def largeCost : NumberLiteral :=
  { negative := false, whole := ['1'], fraction := some "7976931348623157081".toList
    exponent := some (.none, ['3', '0', '8']) }

/-- What is recorded of a run without subcalls behind its name. -/
def bareMembers (cost : NumberLiteral) : List Member :=
  [field "totalSubcalls" (wordValue 0), field "maxDepth" (wordValue 0), field "totalTokens" tokens,
    field "totalCost" (.number cost), field "totalDurationMs" (wordValue 7),
    field "subcalls" (.array [])]

/-- The document of a run with the large cost. -/
def largeDocument : Json :=
  .object (field "runId" (textValue "run-1") :: bareMembers largeCost)

/-- A document in which the name of the run is given twice. -/
def repeatedDocument : Json :=
  .object (field "runId" (textValue "run-1") :: field "runId" (textValue "run-1") ::
    bareMembers totalCost)

variable {cost : NumberLiteral → Prop}

theorem inhabits_largeDocument (h : cost largeCost) :
    Inhabits (single.and (readable cost)) (.reference "Trajectory") largeDocument :=
  .of_fills rfl (by decide) single_and_readable <|
    .present (inhabits_textValue _) (admissible_textValue.2 (absurd · (by decide))) <|
    .present (inhabits_wordValue _) (admissible_wordValue (by decide) (by decide)) <|
    .present (inhabits_wordValue _) (admissible_wordValue (by decide) (by decide)) <|
    .present (inhabits_tokens cost) (admissible_of_ne nofun nofun) <|
    .present (.number _) (admissible_number.2
      ⟨(absurd · (by decide)), (absurd · (by decide)), fun _ => h⟩) <|
    .present (inhabits_wordValue _) (admissible_wordValue (by decide) (by decide)) <|
    .present (.array nofun) (admissible_of_ne nofun nofun) .nil

theorem inhabits_repeatedDocument (h : cost totalCost) :
    Inhabits (readable cost) (.reference "Trajectory") repeatedDocument := by
  have hrun : Admissible cost "runId" (textValue "run-1") :=
    admissible_textValue.2 (absurd · (by decide))
  have htokens : Admissible cost "totalTokens" tokens := admissible_of_ne nofun nofun
  have hsubcalls : Admissible cost "subcalls" (.array []) := admissible_of_ne nofun nofun
  have hinhabits : Inhabits (readable cost) (.reference "TokenCounts") tokens :=
    (inhabits_tokens cost).mono fun _ _ hrules => hrules.2
  -- A property that is given twice does not fill the declared ones in order.
  refine .object rfl ?_ ?_ ?_ ?_
  · simp [bareMembers]
  · simp [property, names, entries, bareMembers]
  · simp [property, entries, bareMembers, readable, wordValue, admissible_number, isNatural_ofNat,
      UInt32.size, UInt64.size, hrun, htokens, h, hsubcalls]
  · simp [property, entries, bareMembers, inhabits_wordValue, inhabits_textValue, hinhabits,
      Inhabits.number, inhabits_array]

theorem spellable_largeCost : largeCost.Spellable := by
  have hdigits : ∀ ds : List Char, ds ≠ [] ∧ ds.all Char.isDigit = true → Decimal.IsDigits ds :=
    fun ds hds => ⟨hds.1, List.all_eq_true.1 hds.2⟩
  exact ⟨hdigits _ (by decide), by simp [largeCost], by
    simpa [largeCost] using hdigits "7976931348623157081".toList (by decide),
    by simpa [largeCost] using hdigits ['3', '0', '8'] (by decide)⟩

theorem inRange_largeCost : InRange largeCost := by
  have hvalue : largeCost.magnitude = ⟨17976931348623157081, (289 : ℕ)⟩ := by decide
  have hle : 17976931348623157081 * 10 ^ 289 ≤ 9007199254740991 * 2 ^ 971 := by decide +kernel
  have hcast : ((17976931348623157081 * 10 ^ 289 : ℕ) : ℚ) ≤ (9007199254740991 * 2 ^ 971 : ℕ) :=
    Nat.cast_le.2 hle
  have hsignificand : (2 : ℚ) ^ 53 - 1 = (9007199254740991 : ℕ) := by norm_num
  rw [InRange, hvalue, Decimal.value, Packing.largest, zpow_natCast, hsignificand]
  rwa [Nat.cast_mul, Nat.cast_mul, Nat.cast_pow, Nat.cast_pow] at hcast

/-- The leading digits of the large cost are scaled to infinity. -/
theorem read_largeCost : largeCost.read = .error .numberOutOfRange := by
  have hinteger : largeCost.integer? = none := rfl
  have hinfinite : largeCost.toFloat.isFinite = false := by decide +kernel
  simp only [NumberLiteral.read, hinteger]
  rw [hinfinite]
  rfl

theorem spellable_bareMembers {cost : NumberLiteral} (h : cost.Spellable) :
    ∀ member ∈ bareMembers cost, SpellableMember member := by
  have hcost : Spellable (.number cost) := h
  have hempty : Spellable (.array []) := trivial
  simp [bareMembers, spellable_field, spellable_wordValue, spellable_tokens,
    spellable_field _ hcost, spellable_field _ hempty]

/-- The document with the large cost is read up to that cost. -/
theorem readRecord_largeDocument :
    readRecord nestingLimit .trajectory largeDocument = .error (.malformed .numberOutOfRange) := by
  have hcost : readField 126 .real (.number largeCost) = .error (.malformed .numberOutOfRange) := by
    change readReal (.number largeCost) = _
    rw [readReal, read_largeCost]
    rfl
  have htokens : readField 126 (.record .tokenCounts) tokens = .ok ⟨100, 20⟩ :=
    readRecord_tokensValue 125 ⟨100, 20⟩
  have hbreaks : Breaks (readField 126) (.malformed .numberOutOfRange) Record.trajectory.fields _ :=
    .present (readField_text _ "run-1") <|
    .present (readField_word32 _ 0) <|
    .present (readField_word32 _ 0) <|
    .present htokens <|
    .here hcost
  exact readRecord_of_breaks hbreaks
    [field "totalDurationMs" (wordValue 7), field "subcalls" (.array [])]

/-- The document with two names is read up to the second one. -/
theorem readRecord_repeatedDocument :
    readRecord nestingLimit .trajectory repeatedDocument = .error (.duplicateField "runId") := by
  have htwice : Slots.readMembers (readField 126) Record.trajectory.fields
      (Slots.empty Record.trajectory.fields)
      (field "runId" (textValue "run-1") :: field "runId" (textValue "run-1") ::
        bareMembers totalCost) = .error (.duplicateField "runId") :=
    Slots.readMembers_twice ⟨"runId", .text⟩ (readField_text 126 "run-1") _ _ _
  refine (readRecord_succ 126 .trajectory _).trans ?_
  simp only [repeatedDocument, htwice]
  rfl

end Recorded

/-- Two documents of the declared type are not read although their subcalls are not nested too
deeply: one with a cost that is smaller than the largest double, but is read as infinity, and one in
which a declared member is given twice. -/
theorem exists_typed_not_read :
    (Document.ofText Recorded.largeDocument.text.toList = ⟨Recorded.largeDocument, false⟩ ∧
      Inhabits (single.and (readable InRange)) (.reference "Trajectory") Recorded.largeDocument ∧
      (∀ depth node, IsNode Recorded.largeDocument depth node → depth ≤ 61) ∧
      Trajectory.parse Recorded.largeDocument.text =
        .error (.unreadable (.malformed .numberOutOfRange))) ∧
    Document.ofText Recorded.repeatedDocument.text.toList = ⟨Recorded.repeatedDocument, false⟩ ∧
      Inhabits (readable fun literal => InRange literal ∧ ReadsFinite literal)
        (.reference "Trajectory") Recorded.repeatedDocument ∧
      (∀ depth node, IsNode Recorded.repeatedDocument depth node → depth ≤ 61) ∧
      Trajectory.parse Recorded.repeatedDocument.text =
        .error (.unreadable (.duplicateField "runId")) := by
  have hlarge : Spellable Recorded.largeDocument :=
    spellable_object (List.forall_mem_cons.2 ⟨spellable_field _ (spellable_textValue _),
      Recorded.spellable_bareMembers Recorded.spellable_largeCost⟩)
  have hrepeated : Spellable Recorded.repeatedDocument :=
    spellable_object (List.forall_mem_cons.2 ⟨spellable_field _ (spellable_textValue _),
      List.forall_mem_cons.2 ⟨spellable_field _ (spellable_textValue _),
        Recorded.spellable_bareMembers Recorded.spellable_totalCost⟩⟩)
  refine ⟨⟨ofText_text hlarge, Recorded.inhabits_largeDocument Recorded.inRange_largeCost, ?_, ?_⟩,
    ofText_text hrepeated, Recorded.inhabits_repeatedDocument ?_, ?_, ?_⟩
  · exact fun depth node hnode => absurd hnode (not_isNode (by
      simp [Recorded.largeDocument, Recorded.bareMembers, entries]))
  · exact parse_eq_error hlarge Recorded.readRecord_largeDocument
  · refine ⟨Recorded.totalCost_le.trans ?_, Recorded.readsFinite_totalCost⟩
    exact (one_le_pow₀ (by norm_num)).trans
      (NumberLiteral.two_pow_le_safeMagnitude.trans Decimal.safeMagnitude_lt_largest.le)
  · exact fun depth node hnode => absurd hnode (not_isNode (by
      simp [Recorded.repeatedDocument, Recorded.bareMembers, entries]))
  · exact parse_eq_error hrepeated Recorded.readRecord_repeatedDocument

end RunTrace.TypeScript
