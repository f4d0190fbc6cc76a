import ScriptLowering.CommandLine.Run

/-!
# Which configuration file decides

A setting may stand in the configuration of the user, in that of the project and in a file that the command line names.
The command line itself comes before them all, and each setting is looked for on its own.

* `ConfigFiles` — the texts of the three files, with `ConfigFiles.settings?`, given how to read one;
* `Settings.setBy`, `ConfigFiles.values` — what one file sets, and what each of the three sets;
* `Settings.IsField` — the settings that an upper file takes over one by one;
* `ConfigFiles.field_eq_findSome?` — a setting has the value of the first file that sets it;
* `CommandLine.Request.toOption_settings` — a request takes its settings from the files that it finds;
* `ConfigFiles.options_by_precedence` — the options of a run, for all texts of the files and all flags.
-/

namespace ScriptLowering

/-! ### Settings and files -/

namespace Settings

/-- What a file says about a setting.  A file that is missing says nothing, and neither does one that cannot be read as
a whole. -/
def setBy {α : Type} (parse : String → Option Settings) (field : Settings → Option α) (file : Option String) :
    Option α :=
  (file.bind parse).bind field

/-- A setting that nothing sets at first, and that settings laid over others decide where they have it. -/
structure IsField {α : Type} (field : Settings → Option α) : Prop where
  unset : field {} = none
  overlay (lower upper : Settings) : field (lower.overlay upper) = (field upper).or (field lower)

theorem isField_mode : IsField Settings.mode := ⟨rfl, fun _ _ => rfl⟩

theorem isField_policy : IsField Settings.policy := ⟨rfl, fun _ _ => rfl⟩

theorem IsField.of_optional {α : Type} {field : Settings → Option α} (hfield : IsField field)
    (parse : String → Option Settings) (file : Option String) :
    field (ofOptional parse file) = setBy parse field file := by
  rw [ofOptional, setBy]
  cases file.bind parse with
  | none => exact hfield.unset
  | some settings => rfl

/-- A file that cannot be read counts as one that is missing. -/
theorem ofOptional_of_unreadable {parse : String → Option Settings} {text : String} (h : parse text = none) :
    ofOptional parse (some text) = ofOptional parse none := by
  rw [ofOptional, Option.bind_some, h]
  rfl

end Settings

/-- The texts of the configuration files, as far as there are such files. -/
structure ConfigFiles where
  global : Option String
  project : Option String
  /-- The file that the command line names. -/
  explicit : Option String

namespace ConfigFiles

/-- The settings of all files, unless the explicit one cannot be read. -/
def settings? (parse : String → Option Settings) (files : ConfigFiles) : Option Settings :=
  Settings.ofLayers? parse files.global files.project files.explicit

/-- What each of the files says about a setting, the one that decides first in front. -/
def values {α : Type} (parse : String → Option Settings) (field : Settings → Option α) (files : ConfigFiles) :
    List (Option α) :=
  [files.explicit, files.project, files.global].map (Settings.setBy parse field)

/-! ### The settings of all files -/

section

variable {parse : String → Option Settings}

/-- Just an explicit file that cannot be read leaves a run without settings. -/
theorem settings?_eq_none_iff {files : ConfigFiles} :
    files.settings? parse = none ↔ ∃ text, files.explicit = some text ∧ parse text = none := by
  rw [settings?, Settings.ofLayers?.eq_def]
  cases files.explicit with
  | none => exact iff_of_false nofun nofun
  | some text => simp

/-- The explicit file is laid over the others, as if it need not exist. -/
theorem eq_overlay_of_settings? {files : ConfigFiles} {settings : Settings}
    (h : files.settings? parse = some settings) :
    settings = (Settings.implicit parse files.global files.project).overlay
      (Settings.ofOptional parse files.explicit) := by
  rw [settings?, Settings.ofLayers?.eq_def] at h
  cases hexplicit : files.explicit with
  | none =>
    rw [hexplicit] at h
    exact (Option.some.inj h).symm
  | some text =>
    rw [hexplicit] at h
    obtain ⟨upper, hupper, rfl⟩ := Option.map_eq_some_iff.mp h
    rw [Settings.ofOptional, Option.bind_some, hupper]
    rfl

/-- Of the two implicit files only what they set counts. -/
theorem settings?_congr {global global' project project' : Option String} (explicit : Option String)
    (hglobal : Settings.ofOptional parse global = Settings.ofOptional parse global')
    (hproject : Settings.ofOptional parse project = Settings.ofOptional parse project') :
    settings? parse ⟨global, project, explicit⟩ = settings? parse ⟨global', project', explicit⟩ := by
  have himplicit : Settings.implicit parse global project = Settings.implicit parse global' project' := by
    rw [Settings.implicit, Settings.implicit, hglobal, hproject]
  rw [settings?, settings?, Settings.ofLayers?.eq_def, Settings.ofLayers?.eq_def, himplicit]

theorem findSome?_id_cons {α : Type} (first : Option α) (rest : List (Option α)) :
    (first :: rest).findSome? id = first.or (rest.findSome? id) := by
  cases first <;> rfl

/-- A setting has the value of the first file that sets it. -/
theorem field_eq_findSome? {α : Type} {field : Settings → Option α} (hfield : Settings.IsField field)
    {files : ConfigFiles} {settings : Settings} (h : files.settings? parse = some settings) :
    field settings = (files.values parse field).findSome? id := by
  rw [eq_overlay_of_settings? h, hfield.overlay, Settings.implicit, hfield.overlay, hfield.of_optional,
    hfield.of_optional, hfield.of_optional, values, List.map_cons, List.map_cons, List.map_cons, List.map_nil,
    findSome?_id_cons, findSome?_id_cons, findSome?_id_cons, List.findSome?_nil, Option.or_none]

end

end ConfigFiles

/-! ### Requests -/

namespace CommandLine

/-- The configuration files of a request, given how to read files. -/
def Request.configFiles (request : Request) (environment : Environment) (read : String → Option String) : ConfigFiles :=
  ⟨environment.globalConfig?.bind read, read projectConfig, request.config.bind read⟩

/-- A request takes its settings from the files that it finds.  It has none when a file that it names is missing. -/
theorem Request.toOption_settings (request : Request) (parse : String → Option Settings) (environment : Environment)
    (read : String → Option String) :
    (request.settings parse environment read).toOption =
      if (request.configFiles environment read).explicit.isSome = request.config.isSome then
        (request.configFiles environment read).settings? parse
      else none := by
  rw [Request.settings, Request.configFiles, ConfigFiles.settings?]
  cases request.config with
  | none => rfl
  | some path =>
    cases hread : read path with
    | none => simp [hread, Except.toOption]
    | some text =>
      simp only [hread, Option.bind_some, Option.isSome_some, if_true, Settings.ofLayers?]
      cases parse text <;> rfl

end CommandLine

/-! ### The options of a run -/

namespace ConfigFiles

variable (parse : String → Option Settings)

/-- The command line decides before the files.  Where neither does, the mode is native and the first fault ends the
run. -/
theorem options_eq {files : ConfigFiles} {settings : Settings} (h : files.settings? parse = some settings)
    (mode : Option Mode) (keepGoing : Bool) :
    settings.options mode keepGoing =
      { mode := ((mode :: files.values parse Settings.mode).findSome? id).getD .native
        policy := if keepGoing then .collect
          else ((files.values parse Settings.policy).findSome? id).getD .failFast } := by
  rw [Settings.options, findSome?_id_cons, field_eq_findSome? Settings.isField_mode h,
    field_eq_findSome? Settings.isField_policy h]

/-- **Precedence of configuration.**  However one file is read, there are no settings just when the explicit file
cannot be read.  Otherwise the mode is that of the flag or else of the first of the explicit file, the project's and the
user's that sets one, and the policy is to collect with the flag for it or else that of the first of the files that sets
one.  Neither depends on what is said about the other.  An implicit file that cannot be read may as well be missing.  A
request has the settings of the files that it finds, and none when a file that it names is missing. -/
theorem options_by_precedence (files : ConfigFiles) (mode : Option Mode) (keepGoing : Bool) :
    (files.settings? parse = none ↔ ∃ text, files.explicit = some text ∧ parse text = none) ∧
    (∀ settings, files.settings? parse = some settings → settings.options mode keepGoing =
      { mode := ((mode :: files.values parse Settings.mode).findSome? id).getD .native
        policy := if keepGoing then .collect
          else ((files.values parse Settings.policy).findSome? id).getD .failFast }) ∧
    (∀ (other : ConfigFiles) settings settings', files.settings? parse = some settings →
      other.settings? parse = some settings' →
        (files.values parse Settings.mode = other.values parse Settings.mode → ∀ keepGoing',
          (settings.options mode keepGoing).mode = (settings'.options mode keepGoing').mode) ∧
        (files.values parse Settings.policy = other.values parse Settings.policy → ∀ mode',
          (settings.options mode keepGoing).policy = (settings'.options mode' keepGoing).policy)) ∧
    (∀ text, parse text = none →
      settings? parse { files with global := some text } = settings? parse { files with global := none } ∧
      settings? parse { files with project := some text } = settings? parse { files with project := none }) ∧
    ∀ (request : CommandLine.Request) (environment : CommandLine.Environment) (read : String → Option String),
      request.configFiles environment read = files → (request.settings parse environment read).toOption =
        if files.explicit.isSome = request.config.isSome then files.settings? parse else none := by
  refine ⟨settings?_eq_none_iff, fun settings h => options_eq parse h mode keepGoing, ?_, ?_, ?_⟩
  · intro other settings settings' h h'
    refine ⟨fun hmode keepGoing' => ?_, fun hpolicy mode' => ?_⟩
    · rw [options_eq parse h, options_eq parse h', hmode]
    · rw [options_eq parse h, options_eq parse h', hpolicy]
  · intro text htext
    have habsent := Settings.ofOptional_of_unreadable htext
    exact ⟨settings?_congr files.explicit habsent rfl, settings?_congr files.explicit rfl habsent⟩
  · rintro request environment read rfl
    exact request.toOption_settings parse environment read

/-- Files of which that of the project sets a mode, but cannot be read because of its policy. -/
def sample : ConfigFiles where
  global := some "[codegen]\nmode = \"managed\"\nerror_policy = \"collect\"\n"
  project := some "[codegen]\nmode = \"native\"\nerror_policy = \"never\"\n"
  explicit := some "codegen.error_policy = \"fail_fast\""

/-- The mode comes from the user's file, past the unreadable one of the project, and the policy from the explicit one. -/
theorem options_by_precedence_sample :
    sample.settings? Settings.ofText? = some ⟨some .managed, some .failFast⟩ ∧
    Settings.options ⟨some .managed, some .failFast⟩ none false =
      ⟨((none :: sample.values Settings.ofText? Settings.mode).findSome? id).getD .native,
        ((sample.values Settings.ofText? Settings.policy).findSome? id).getD .failFast⟩ ∧
    sample.settings? Settings.ofText? = settings? Settings.ofText? { sample with project := none } ∧
    settings? Settings.ofText? { sample with explicit := sample.project } = none := by
  have hsettings : sample.settings? Settings.ofText? = some ⟨some .managed, some .failFast⟩ := by decide +kernel
  have hunreadable : Settings.ofText? "[codegen]\nmode = \"native\"\nerror_policy = \"never\"\n" = none := by
    decide +kernel
  obtain ⟨-, hoptions, -, hmissing, -⟩ := options_by_precedence Settings.ofText? sample none false
  obtain ⟨hfailure, -⟩ :=
    options_by_precedence Settings.ofText? { sample with explicit := sample.project } none false
  exact ⟨hsettings, hoptions _ hsettings, (hmissing _ hunreadable).2, hfailure.mpr ⟨_, rfl, hunreadable⟩⟩

end ConfigFiles

end ScriptLowering
