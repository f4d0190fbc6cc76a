import ScriptLowering.Output
import ScriptLowering.Toml.Reader

/-!
# Settings

Settings come from up to three configuration files, and the command line overrules them all.

* `Settings` — what configuration files have set;
* `Settings.ofText?` — the settings of one file;
* `Settings.overlay` — settings with others laid over them;
* `Settings.implicit` — the settings of the files that need not exist;
* `Settings.ofLayers?` — the settings of all files, given how to read one;
* `Settings.options` — the options for a run.
-/

namespace ScriptLowering

/-- What configuration files have set. -/
structure Settings where
  mode : Option Mode := none
  policy : Option ErrorPolicy := none
deriving DecidableEq

/-! ### Reading -/

/-- Whether a value is a table or a list with nothing in it. -/
def Toml.isVoid : Toml → Bool
  | .table _ [] => true
  | .list [] => true
  | .tables [] => true
  | _ => false

/-- The name that a value spells: a text, or a table whose only key is the name, with nothing under it. -/
def Toml.name? : Toml → Option String
  | .string name => some name
  | .table _ [(name, content)] => if content.isVoid then some name else none
  | _ => none

/-- Reads a value that may be missing. -/
def Toml.setting? {α : Type} (ofName? : String → Option α) : Option Toml → Option (Option α)
  | none => some none
  | some value => do
    let name ← value.name?
    let setting ← ofName? name
    return some setting

namespace Settings

/-- The settings of a mode and a policy, where given. -/
def ofValues? (mode policy : Option Toml) : Option Settings := do
  let mode ← Toml.setting? Mode.ofName? mode
  let policy ← Toml.setting? ErrorPolicy.ofName? policy
  return ⟨mode, policy⟩

/-- The settings of the section for lowering: a table, or a list of the mode and the policy.  A date or time
counts as a table that sets nothing. -/
def ofSection? : Toml → Option Settings
  | .table _ entries => ofValues? (Toml.find? "mode" entries) (Toml.find? "error_policy" entries)
  | .list items => ofValues? items[0]? items[1]?
  | .tables items => ofValues? ((items[0]?).map (.table .header)) ((items[1]?).map (.table .header))
  | .moment _ => some {}
  | _ => none

/-- The settings of a configuration file, when the file can be read as a whole. -/
def ofText? (text : String) : Option Settings := do
  let entries ← Toml.parse? text
  match Toml.find? "codegen" entries with
  | none => return {}
  | some content => ofSection? content

/-! ### Layers -/

/-- The settings with others laid over them: each is taken from the upper ones where they have it. -/
def overlay (lower upper : Settings) : Settings :=
  ⟨upper.mode.or lower.mode, upper.policy.or lower.policy⟩

section

variable (parse : String → Option Settings)

/-- The settings of a file that need not exist and is left aside when it cannot be read. -/
def ofOptional (text : Option String) : Settings := ((text.bind parse).getD {})

/-- The settings of the two files that need not exist. -/
def implicit (global project : Option String) : Settings :=
  (ofOptional parse global).overlay (ofOptional parse project)

/-- The settings of all files; the explicit one has to be readable. -/
def ofLayers? (global project explicit : Option String) : Option Settings :=
  match explicit with
  | none => some (implicit parse global project)
  | some text => (parse text).map ((implicit parse global project).overlay ·)

end

/-- The options for a run, with what the command line says. -/
def options (settings : Settings) (mode : Option Mode) (keepGoing : Bool) : Options :=
  { mode := (mode.or settings.mode).getD .native
    policy := if keepGoing then .collect else settings.policy.getD .failFast }

end Settings

end ScriptLowering
