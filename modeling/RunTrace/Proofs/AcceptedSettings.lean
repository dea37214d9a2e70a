import RunTrace.Proofs.Decimal.Word
import RunTrace.Settings

/-!
# Which settings are accepted

The settings are read one after the other, each by a reader of its own, and reading ends with the
first one that is not valid. Here what is valid is said for each setting by itself; settings are
accepted exactly if each of them is, and otherwise the error is that of the first one that is not,
whatever the later ones are.

## Main results

* `readBound_eq_ok_iff`, `readMode_eq_ok_iff`, `readTruth_eq_ok_iff`: the values that the readers
  accept;
* `Setting.error?_eq_none_iff`: a setting has no error exactly if it is valid;
* `Settings.failure?_read`: reading fails with the first error in the order of the settings;
* `Settings.read_accepts`: when settings are accepted, what they are then, and what is reported
  otherwise.
-/

namespace RunTrace

/-- The error of what has failed. -/
def failure? {ε α : Type} : Except ε α → Option ε
  | .ok _ => none
  | .error error => some error

theorem failure?_eq_none_iff {ε α : Type} {result : Except ε α} :
    failure? result = none ↔ ∃ value, result = .ok value := by
  cases result <;> simp [failure?]

theorem failure?_eq_some_iff {ε α : Type} {result : Except ε α} {error : ε} :
    failure? result = some error ↔ result = .error error := by
  cases result <;> simp [failure?]

/-! ## The readers -/

namespace Settings

/-- A bound is read from nothing, which gives the default, or from a text that spells a word other
than zero. -/
theorem readBound_eq_ok_iff {value? : Option String} {bound : UInt32} :
    readBound value? = .ok bound ↔
      value?.elim (bound = 10) fun text => 1 ≤ bound ∧ Decimal.WordSpelledBy bound text := by
  cases value? with
  | none => exact ⟨fun h => (Except.ok.inj h).symm, fun h => congrArg Except.ok h.symm⟩
  | some text =>
    have hpos : ∀ word : UInt32, 1 ≤ word ↔ ¬ word = 0 := by
      intro word
      rw [UInt32.le_iff_toNat_le, ← UInt32.toNat_inj]
      exact Nat.one_le_iff_ne_zero
    rw [Option.elim_some, hpos, ← Decimal.readWord_eq_ok_iff]
    constructor
    · intro h
      obtain ⟨word, hword, h⟩ := bind_eq_ok.1 h
      rw [mapError_eq_ok] at hword
      split at h
      · exact nomatch h
      · next hne =>
        obtain rfl := Except.ok.inj h
        exact ⟨hne, hword⟩
    · rintro ⟨hne, hword⟩
      refine bind_eq_ok.2 ⟨bound, mapError_eq_ok.2 hword, ?_⟩
      rw [if_neg hne]
      rfl

/-- A mode is read from nothing, which gives the default, or from its name. -/
theorem readMode_eq_ok_iff {value? : Option String} {mode : ExpandMode} :
    readMode value? = .ok mode ↔ value?.elim (mode = .all) fun text => text = mode.name := by
  cases value? with
  | none => exact ⟨fun h => (Except.ok.inj h).symm, fun h => congrArg Except.ok h.symm⟩
  | some text =>
    rw [Option.elim_some, readMode]
    constructor
    · intro h
      split at h
      · next hname => exact Except.ok.inj h ▸ hname
      · split at h
        · next hname => exact Except.ok.inj h ▸ hname
        · exact nomatch h
    · rintro rfl
      cases mode <;> rfl

/-- A truth value is read from nothing, which gives the default, or from its name. -/
theorem readTruth_eq_ok_iff {name : String} {default truth : Bool} {value? : Option String} :
    readTruth name default value? = .ok truth ↔
      value?.elim (truth = default) fun text => text = toString truth := by
  cases value? with
  | none => exact ⟨fun h => (Except.ok.inj h).symm, fun h => congrArg Except.ok h.symm⟩
  | some text =>
    rw [Option.elim_some, readTruth]
    constructor
    · intro h
      split at h
      · next hname => exact Except.ok.inj h ▸ hname
      · split at h
        · next hname => exact Except.ok.inj h ▸ hname
        · exact nomatch h
    · rintro rfl
      cases truth <;> rfl

end Settings

/-! ## Settings by themselves -/

/-- What can be set. -/
inductive Setting where
  | file
  | bound
  | expand
  | showTools
  | auditSummary
  deriving DecidableEq

namespace Setting

/-- The settings in the order in which they are read. -/
def all : List Setting :=
  [file, bound, expand, showTools, auditSummary]

theorem mem_all (setting : Setting) : setting ∈ all := by
  cases setting <;> decide

/-- The name of the variable of a setting. -/
def variableName : Setting → String
  | file => "TRAJECTORY_FILE"
  | bound => "TRAJECTORY_MAX_DISPLAY_DEPTH"
  | expand => "TRAJECTORY_EXPAND"
  | showTools => "TRAJECTORY_SHOW_TOOLS"
  | auditSummary => "TRAJECTORY_AUDIT_SUMMARY"

/-- What is given for a setting, if anything: the value of its variable, or for the file the
argument if there is one. -/
def given (argument? : Option String) (value? : String → Option String) :
    Setting → Option String
  | file => argument?.or (value? file.variableName)
  | setting => value? setting.variableName

/-- Whether what is given for a setting is valid. Only a file has to be given. -/
def Accepts (setting : Setting) (given : Option String) : Prop :=
  match setting with
  | file => ∃ path, given = some path
  | bound => ∀ text ∈ given, ∃ word, 1 ≤ word ∧ Decimal.WordSpelledBy word text
  | expand => ∀ text ∈ given, text = "none" ∨ text = "all"
  | showTools | auditSummary => ∀ text ∈ given, text = "true" ∨ text = "false"

/-- What is reported of what is given for a setting, if anything. -/
def error? (setting : Setting) (given : Option String) : Option SettingsError :=
  match setting with
  | file => if given = none then some .noFile else none
  | bound => failure? (Settings.readBound given)
  | expand => failure? (Settings.readMode given)
  | showTools => failure? (Settings.readTruth Settings.showToolsVariable false given)
  | auditSummary => failure? (Settings.readTruth Settings.auditVariable true given)

/-- Something can be read exactly if it can be from the text that is given, if one is. -/
theorem exists_elim_iff {α : Type} {given : Option String} {default : α}
    {spelledBy : α → String → Prop} :
    (∃ value, given.elim (value = default) (spelledBy value)) ↔
      ∀ text ∈ given, ∃ value, spelledBy value text := by
  cases given <;> simp

theorem exists_mode_iff {text : String} :
    (∃ mode : ExpandMode, text = mode.name) ↔ text = "none" ∨ text = "all" := by
  constructor
  · rintro ⟨mode, rfl⟩
    cases mode with
    | none => exact .inl rfl
    | all => exact .inr rfl
  · rintro (rfl | rfl)
    · exact ⟨.none, rfl⟩
    · exact ⟨.all, rfl⟩

theorem exists_truth_iff {text : String} :
    (∃ truth : Bool, text = toString truth) ↔ text = "true" ∨ text = "false" := by
  rw [Bool.exists_bool, or_comm]
  rfl

/-- A setting has no error exactly if what is given for it is valid. -/
theorem error?_eq_none_iff {setting : Setting} {given : Option String} :
    setting.error? given = none ↔ setting.Accepts given := by
  cases setting with
  | file => cases given <;> simp [error?, Accepts]
  | bound =>
    rw [error?, failure?_eq_none_iff]
    simp only [Settings.readBound_eq_ok_iff, exists_elim_iff]
    rfl
  | expand =>
    rw [error?, failure?_eq_none_iff]
    simp only [Settings.readMode_eq_ok_iff, exists_elim_iff, exists_mode_iff]
    rfl
  | showTools | auditSummary =>
    rw [error?, failure?_eq_none_iff]
    simp only [Settings.readTruth_eq_ok_iff, exists_elim_iff, exists_truth_iff]
    rfl

/-- Whether what is given is valid can be computed. -/
instance (setting : Setting) (given : Option String) : Decidable (setting.Accepts given) :=
  decidable_of_iff _ error?_eq_none_iff

end Setting

/-- The name of the variable that an error is about. -/
def SettingsError.variableName : SettingsError → String
  | noFile => Settings.fileVariable
  | invalidNumber name _ _ => name
  | zeroBound => Settings.boundVariable
  | invalidMode _ => Settings.expandVariable
  | invalidTruth name _ => name

theorem isInfix_append (front name back : String) :
    name.toList <:+: (front ++ (name ++ back)).toList := by
  rw [String.toList_append, String.toList_append, ← List.append_assoc]
  exact List.infix_append _ _ _

/-- The text for an error names the variable that it is about. -/
theorem SettingsError.variableName_isInfix (error : SettingsError) :
    error.variableName.toList <:+: error.message.toList := by
  cases error with
  | noFile =>
    have hmessage : noFile.message = "No trajectory given. Pass a path or set " ++
        (Settings.fileVariable ++ "") := rfl
    rw [hmessage]
    exact isInfix_append _ _ _
  | invalidNumber name value error =>
    have hmessage : (invalidNumber name value error).message =
        "Failed to parse env var " ++ name ++ "=" ++ value ++ ": " ++ error.message := rfl
    rw [hmessage]
    simp only [String.append_assoc]
    exact isInfix_append _ name _
  | zeroBound =>
    have hmessage : zeroBound.message = "" ++ (Settings.boundVariable ++ " must be at least 1") :=
      rfl
    rw [hmessage]
    exact isInfix_append _ _ _
  | invalidMode value =>
    have hmessage : (invalidMode value).message = "Invalid " ++ Settings.expandVariable ++ " '" ++
        value ++ "'. Expected 'none' or 'all'" := rfl
    rw [hmessage]
    simp only [String.append_assoc]
    exact isInfix_append _ Settings.expandVariable _
  | invalidTruth name value =>
    have hmessage : (invalidTruth name value).message = "Failed to parse env var " ++ name ++ "=" ++
        value ++ ": provided string was not `true` or `false`" := rfl
    rw [hmessage]
    simp only [String.append_assoc]
    exact isInfix_append _ name _

namespace Settings

variable {value? : Option String} {error : SettingsError}

theorem variableName_of_readBound (h : readBound value? = .error error) :
    error.variableName = boundVariable := by
  cases value? with
  | none => exact nomatch h
  | some text =>
    -- The text is no word, or it is that of zero.
    rcases bind_eq_error.1 h with hword | ⟨word, -, hzero⟩
    · obtain ⟨wrong, -, rfl⟩ := mapError_eq_error.1 hword
      rfl
    · split at hzero
      · obtain rfl := Except.error.inj hzero
        rfl
      · exact nomatch hzero

theorem variableName_of_readMode (h : readMode value? = .error error) :
    error.variableName = expandVariable := by
  unfold readMode at h
  repeat' split at h
  · exact nomatch h
  · exact nomatch h
  · exact nomatch h
  · obtain rfl := Except.error.inj h
    rfl

theorem variableName_of_readTruth {name : String} {default : Bool}
    (h : readTruth name default value? = .error error) : error.variableName = name := by
  unfold readTruth at h
  repeat' split at h
  · exact nomatch h
  · exact nomatch h
  · exact nomatch h
  · obtain rfl := Except.error.inj h
    rfl

end Settings

/-- What is reported of a setting is about its variable. -/
theorem Setting.variableName_of_error? {setting : Setting} {given : Option String}
    {error : SettingsError} (h : setting.error? given = some error) :
    error.variableName = setting.variableName := by
  cases setting with
  | file =>
    rw [error?] at h
    split at h
    · obtain rfl := Option.some.inj h
      rfl
    · exact nomatch h
  | bound => exact Settings.variableName_of_readBound (failure?_eq_some_iff.1 h)
  | expand => exact Settings.variableName_of_readMode (failure?_eq_some_iff.1 h)
  | showTools | auditSummary =>
    exact Settings.variableName_of_readTruth (failure?_eq_some_iff.1 h)

/-! ## All settings -/

namespace Settings

variable {argument? : Option String} {value? : String → Option String}

/-- Settings are those that are given: for each of them what is given is a text for its value, or
nothing is and the value is the default. -/
structure TakenFrom (given : Setting → Option String) (settings : Settings) : Prop where
  file : given .file = some settings.file
  bound : (given .bound).elim (settings.bound = 10) fun text =>
    1 ≤ settings.bound ∧ Decimal.WordSpelledBy settings.bound text
  expand : (given .expand).elim (settings.expand = .all) fun text => text = settings.expand.name
  showTools : (given .showTools).elim (settings.showTools = false) fun text =>
    text = toString settings.showTools
  auditSummary : (given .auditSummary).elim (settings.auditSummary = true) fun text =>
    text = toString settings.auditSummary

/-- Settings are read exactly if they are those that are given. -/
theorem read_eq_ok_iff {settings : Settings} :
    read argument? value? = .ok settings ↔
      settings.TakenFrom (Setting.given argument? value?) := by
  constructor
  · intro h
    unfold read at h
    split at h
    · next file hfile =>
      obtain ⟨bound, hbound, h⟩ := bind_eq_ok.1 h
      obtain ⟨expand, hexpand, h⟩ := bind_eq_ok.1 h
      obtain ⟨showTools, hshowTools, h⟩ := bind_eq_ok.1 h
      obtain ⟨auditSummary, hauditSummary, h⟩ := bind_eq_ok.1 h
      obtain rfl := Except.ok.inj h
      exact ⟨hfile, readBound_eq_ok_iff.1 hbound, readMode_eq_ok_iff.1 hexpand,
        readTruth_eq_ok_iff.1 hshowTools, readTruth_eq_ok_iff.1 hauditSummary⟩
    · exact nomatch h
  · intro taken
    have hfile : argument?.or (value? fileVariable) = some settings.file := taken.file
    rw [read, hfile]
    refine bind_eq_ok.2 ⟨_, readBound_eq_ok_iff.2 taken.bound, ?_⟩
    refine bind_eq_ok.2 ⟨_, readMode_eq_ok_iff.2 taken.expand, ?_⟩
    refine bind_eq_ok.2 ⟨_, readTruth_eq_ok_iff.2 taken.showTools, ?_⟩
    exact bind_eq_ok.2 ⟨_, readTruth_eq_ok_iff.2 taken.auditSummary, rfl⟩

/-- Reading fails with the first error in the order of the settings. -/
theorem failure?_read (argument? : Option String) (value? : String → Option String) :
    failure? (read argument? value?) = Setting.all.findSome? fun setting =>
      setting.error? (Setting.given argument? value? setting) := by
  have hfile : Setting.given argument? value? .file = argument?.or (value? fileVariable) := rfl
  have hbound : Setting.given argument? value? .bound = value? boundVariable := rfl
  have hexpand : Setting.given argument? value? .expand = value? expandVariable := rfl
  have hshow : Setting.given argument? value? .showTools = value? showToolsVariable := rfl
  have haudit : Setting.given argument? value? .auditSummary = value? auditVariable := rfl
  simp only [Setting.all, List.findSome?_cons, List.findSome?_nil, read, Setting.error?, hfile,
    hbound, hexpand, hshow, haudit]
  cases argument?.or (value? fileVariable) with
  | none => rfl
  | some file =>
    cases readBound (value? boundVariable) with
    | error error => rfl
    | ok bound =>
      cases readMode (value? expandVariable) with
      | error error => rfl
      | ok expand =>
        cases readTruth showToolsVariable false (value? showToolsVariable) with
        | error error => rfl
        | ok showTools =>
          cases readTruth auditVariable true (value? auditVariable) with
          | error error => rfl
          | ok auditSummary => rfl

/-- A bound that is taken is not zero: neither the default nor one that is given is. -/
theorem TakenFrom.one_le_bound {given : Setting → Option String} {settings : Settings}
    (h : settings.TakenFrom given) : 1 ≤ settings.bound := by
  have hbound := h.bound
  cases hgiven : given .bound with
  | none =>
    rw [hgiven, Option.elim_none] at hbound
    rw [hbound]
    decide
  | some text =>
    rw [hgiven, Option.elim_some] at hbound
    exact hbound.1

/-- Settings are accepted exactly if each of them is valid: there is a file, from the argument or
from its variable; the bound is a word of digits, with or without a plus sign in front, that is not
zero; the mode is one of two; and each of the two truth values is written as such. All but the file
can be left out. The settings are then those that are given, with defaults for those left out, and
the bound is at least one.

Otherwise the error is about the first setting in the order of reading that is not valid, and its
text names the variable of this setting. It would be the same error with anything else given for the
settings behind. -/
theorem read_accepts (argument? : Option String) (value? : String → Option String) :
    let given := Setting.given argument? value?
    ((∃ settings, read argument? value? = .ok settings) ↔
        ∀ setting : Setting, setting.Accepts (given setting)) ∧
      (∀ settings, read argument? value? = .ok settings →
        settings.TakenFrom given ∧ 1 ≤ settings.bound) ∧
      ∀ error, read argument? value? = .error error →
        ∃ before setting behind, Setting.all = before ++ setting :: behind ∧
          (∀ earlier ∈ before, earlier.Accepts (given earlier)) ∧
          ¬ setting.Accepts (given setting) ∧
          error.variableName = setting.variableName ∧
          setting.variableName.toList <:+: error.message.toList ∧
          ∀ otherArgument? otherValue?,
            (∀ same ∈ before ++ [setting],
              Setting.given otherArgument? otherValue? same = given same) →
              read otherArgument? otherValue? = .error error := by
  intro given
  refine ⟨?_, fun settings h => ?_, fun error h => ?_⟩
  · rw [← failure?_eq_none_iff, failure?_read, List.findSome?_eq_none_iff]
    constructor
    · exact fun h setting => Setting.error?_eq_none_iff.1 (h setting setting.mem_all)
    · exact fun h setting _ => Setting.error?_eq_none_iff.2 (h setting)
  · have taken := read_eq_ok_iff.1 h
    exact ⟨taken, taken.one_le_bound⟩
  · rw [← failure?_eq_some_iff, failure?_read] at h
    obtain ⟨before, setting, behind, hall, herror, hearlier⟩ := List.findSome?_eq_some_iff.1 h
    have hname := Setting.variableName_of_error? herror
    have hnamed := error.variableName_isInfix
    rw [hname] at hnamed
    refine ⟨before, setting, behind, hall, ?_, ?_, hname, hnamed, ?_⟩
    · exact fun earlier hmem => Setting.error?_eq_none_iff.1 (hearlier earlier hmem)
    · intro haccepts
      rw [Setting.error?_eq_none_iff.2 haccepts] at herror
      exact nomatch herror
    · intro otherArgument? otherValue? hsame
      rw [← failure?_eq_some_iff, failure?_read]
      refine List.findSome?_eq_some_iff.2 ⟨before, setting, behind, hall, ?_, ?_⟩
      · rw [hsame setting (List.mem_append_right before List.mem_cons_self)]
        exact herror
      · intro earlier hmem
        rw [hsame earlier (List.mem_append_left _ hmem)]
        exact hearlier earlier hmem

/-- A bound of `+02` is accepted. A mode of another name is reported, and a truth value behind it
that would not be accepted makes no difference. -/
theorem read_accepts_demo :
    let value? := fun (mode truth name : String) =>
      [("TRAJECTORY_MAX_DISPLAY_DEPTH", "+02"), ("TRAJECTORY_EXPAND", mode),
        ("TRAJECTORY_SHOW_TOOLS", truth)].lookup name
    (∃ settings, read (some "run.json") (value? "none" "true") = .ok settings ∧
        1 ≤ settings.bound) ∧
      read (some "run.json") (value? "most" "maybe") = .error (.invalidMode "most") ∧
      read (some "run.json") (value? "most" "true") = .error (.invalidMode "most") := by
  intro value?
  obtain ⟨haccepts, htaken, -⟩ := read_accepts (some "run.json") (value? "none" "true")
  have hvalid : ∀ setting : Setting,
      setting.Accepts (Setting.given (some "run.json") (value? "none" "true") setting) := by
    intro setting
    cases setting <;> decide +kernel
  obtain ⟨settings, hread⟩ := haccepts.2 hvalid
  have hrejected : read (some "run.json") (value? "most" "maybe") = .error (.invalidMode "most") :=
    failure?_eq_some_iff.1 (by decide +kernel)
  refine ⟨⟨settings, hread, (htaken settings hread).2⟩, hrejected, ?_⟩
  obtain ⟨before, setting, behind, -, hearlier, -, hname, -, hother⟩ :=
    (read_accepts (some "run.json") (value? "most" "maybe")).2.2 _ hrejected
  refine hother _ _ fun same hsame => ?_
  cases same with
  | showTools =>
    -- The truth value is behind the mode: it is not valid, and the error is not about it.
    rcases List.mem_append.1 hsame with hbefore | hlast
    · exact absurd (hearlier .showTools hbefore) (by decide +kernel)
    · obtain rfl := List.mem_singleton.1 hlast
      exact absurd hname (by decide)
  | file | bound | expand | auditSummary => rfl

end Settings

end RunTrace
