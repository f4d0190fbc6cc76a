import ScriptLowering.CommandLine.Arguments
import ScriptLowering.CommandLine.Schema
import ScriptLowering.Settings
import ScriptLowering.Tree.FromJson

/-!
# Runs of the command line

* `CommandLine.Environment` — the variables that a run looks at;
* `CommandLine.Readers` — how arguments, configurations and programs are understood;
* `CommandLine.Files` — how files are read and written;
* `CommandLine.Failure` — why a run ends without a script, with `Failure.message`;
* `CommandLine.Request.lower` — the script that a request asks for, given the texts of the files;
* `CommandLine.Report` — what a run prints and the code it ends with;
* `CommandLine.run` — a whole run, wherever its files are.

All files that a request may look at are read first, and nothing is written before the script is complete.
-/

namespace ScriptLowering.CommandLine

/-! ### Configuration files -/

/-- The variables that a run looks at. -/
structure Environment where
  /-- Where configuration lies, if this is said. -/
  configHome : Option String
  home : Option String

/-- A path with a relative path after it. -/
def joinPath (base path : String) : String :=
  if base.isEmpty then path
  else if base.toList.getLast? = some '/' then base ++ path
  else base ++ "/" ++ path

/-- The configuration file of the user. -/
def Environment.globalConfig? (environment : Environment) : Option String :=
  match environment.configHome with
  | some directory => some (joinPath directory "transpose/config.toml")
  | none =>
    match environment.home with
    | some home => if home.isEmpty then none else some (joinPath home ".config/transpose/config.toml")
    | none => none

/-- The configuration file of the project. -/
def projectConfig : String := ".transpose/config.toml"

/-! ### Texts and files -/

/-- How the texts that a run is given are understood. -/
structure Readers where
  invocation : List String → Invocation
  settings? : String → Option Settings
  program? : String → Option Program

/-- The syntax of arguments, configuration files and programs. -/
def Readers.standard : Readers := ⟨Invocation.ofArguments, Settings.ofText?, Program.ofText?⟩

/-- How files are read and written. -/
structure Files (m : Type → Type) where
  /-- The text of the file at a path, if it can be read. -/
  read? : String → m (Option String)
  /-- Writes a text to the file at a path, and says whether that was possible. -/
  write : String → String → m Bool

/-- The texts of some files, those that can be read, each with its path. -/
def Files.readAll {m : Type → Type} [Monad m] (files : Files m) : List String → m (List (String × String))
  | [] => return []
  | path :: rest => do
    let text ← files.read? path
    let others ← files.readAll rest
    return (text.map (path, ·)).toList ++ others

/-! ### Requests -/

/-- Why a run ends without a script. -/
inductive Failure where
  | unreadableConfig (path : String)
  | invalidConfig (path : String)
  | unreadableInput (path : String)
  | invalidInput (path : String)
  | itemFault (fault : ItemFault)
  | unwritableOutput (path : String)
deriving DecidableEq

/-- The text of a failure: what failed, and then why. -/
def Failure.message : Failure → String
  | .unreadableConfig path => "failed to read config " ++ path ++ ": the file cannot be read"
  | .invalidConfig path => "invalid config " ++ path ++ ": the text is no configuration"
  | .unreadableInput path => "failed to read " ++ path ++ ": the file cannot be read"
  | .invalidInput path => "failed to parse AST from " ++ path ++ ": the text is no program"
  | .itemFault fault => fault.message ++ ": " ++ fault.cause.message
  | .unwritableOutput path => "failed to write " ++ path ++ ": the file cannot be written"

/-- The files that a request may look at, in the order in which it does. -/
def Request.sources (request : Request) (environment : Environment) : List String :=
  environment.globalConfig?.toList ++ [projectConfig] ++ request.config.toList ++ [request.input]

/-- The settings for a request. -/
def Request.settings (request : Request) (parse : String → Option Settings) (environment : Environment)
    (read : String → Option String) : Except Failure Settings :=
  let implicit := Settings.implicit parse (environment.globalConfig?.bind read) (read projectConfig)
  match request.config with
  | none => .ok implicit
  | some path =>
    match read path with
    | none => .error (.unreadableConfig path)
    | some text =>
      match parse text with
      | none => .error (.invalidConfig path)
      | some settings => .ok (implicit.overlay settings)

/-- The program of a request. -/
def Request.program (request : Request) (decode : String → Option Program) (read : String → Option String) :
    Except Failure Program :=
  match read request.input with
  | none => .error (.unreadableInput request.input)
  | some text =>
    match decode text with
    | none => .error (.invalidInput request.input)
    | some program => .ok program

/-- The script that a request asks for. -/
def Request.lower (request : Request) (readers : Readers) (environment : Environment)
    (read : String → Option String) : Except Failure Output := do
  let settings ← request.settings readers.settings? environment read
  let program ← request.program readers.program? read
  match program.lower (settings.options request.mode request.keepGoing) with
  | .ok output => return output
  | .error fault => throw (.itemFault fault)

/-! ### Reports -/

/-- What a run prints, and the code it ends with. -/
structure Report where
  exitCode : Nat
  output : String
  /-- The messages, one for each error. -/
  errors : List String
deriving DecidableEq

namespace Report

/-- The report of a run that only prints a text. -/
def ofText (text : String) : Report := ⟨0, text, []⟩

/-- The report of wrong arguments. -/
def misuse : Report := ⟨2, "", ["wrong arguments"]⟩

/-- The report of a failure. -/
def ofFailure (failure : Failure) : Report := ⟨1, "", [failure.message]⟩

/-- The report of a script, of which the given text goes to the standard output. -/
def ofOutput (output : Output) (printed : String) : Report :=
  ⟨if output.isComplete then 0 else 1, printed, output.faults.map ItemFault.message⟩

/-- The lines for the standard error. -/
def errorLines (report : Report) : List String := report.errors.map ("error: " ++ ·)

end Report

/-- The name of the program and its version. -/
def versionText : String := "transpose 0.2.0\n"

section

variable {m : Type → Type} [Monad m]

/-- Ends a run with the script of the request, or with the failure to get one: the script goes to the file for it, or
else to the standard output. -/
def Request.deliver (request : Request) (files : Files m) : Except Failure Output → m Report
  | .error failure => return .ofFailure failure
  | .ok output =>
    match request.output with
    | none => return .ofOutput output output.script
    | some path => do
      if ← files.write path output.script then return .ofOutput output ""
      else return .ofFailure (.unwritableOutput path)

/-- A run of a request. -/
def Request.run (request : Request) (readers : Readers) (files : Files m) (environment : Environment) : m Report := do
  let texts ← files.readAll (request.sources environment)
  request.deliver files (request.lower readers environment (texts.lookup ·))

/-- A run with the given arguments. -/
def run (readers : Readers) (files : Files m) (arguments : List String) (environment : Environment) : m Report :=
  match readers.invocation arguments with
  | .schema => return .ofText schemaText
  | .version => return .ofText versionText
  | .misuse => return .misuse
  | .run request => request.run readers files environment

end

end ScriptLowering.CommandLine
