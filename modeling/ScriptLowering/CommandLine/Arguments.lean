import ScriptLowering.Mode

/-!
# Arguments of the command line

* `CommandLine.Request` — a run that the arguments ask for;
* `CommandLine.Invocation` — what the arguments ask for: a run, the schema, the version, or nothing valid;
* `CommandLine.Word` — what a single argument is;
* `CommandLine.Invocation.ofArguments` — what a list of arguments asks for.

Arguments are looked at from left to right, and the first one that decides the matter does.  No option is
given twice, and option names are not abbreviated.
-/

namespace ScriptLowering.CommandLine

/-- A run of the program. -/
structure Request where
  /-- The file that holds the program. -/
  input : String
  /-- The file for the script, instead of the standard output. -/
  output : Option String
  mode : Option Mode
  /-- Whether to leave out items that cannot be lowered. -/
  keepGoing : Bool
  /-- A configuration file over the implicit ones. -/
  config : Option String
deriving DecidableEq

/-- What a list of arguments asks for. -/
inductive Invocation where
  | run (request : Request)
  | schema
  | version
  | misuse
deriving DecidableEq

/-! ### Single arguments -/

/-- An option that takes a value. -/
inductive ValuedOption where
  | output
  | mode
  | config
deriving DecidableEq

/-- What a single argument is. -/
inductive Word where
  | operand (text : String)
  /-- An option with a value, if the value is in the same argument. -/
  | valued (option : ValuedOption) (value : Option String)
  | keepGoing
  | version
  /-- The mark after which every argument is an operand. -/
  | operandsFollow
  | unknown
deriving DecidableEq

namespace Word

/-- The option with the given long name, and a value if one is attached. -/
def ofLong (name : List Char) (value : Option String) : Word :=
  match String.ofList name, value with
  | "output", value => .valued .output value
  | "mode", value => .valued .mode value
  | "config", value => .valued .config value
  | "keep-going", none => .keepGoing
  | "version", none => .version
  | _, _ => .unknown

/-- The value attached to a short option; an equals sign in front of it does not count. -/
def attached? : List Char → Option String
  | [] => none
  | '=' :: value => some (String.ofList value)
  | value => some (String.ofList value)

/-- What an argument is. -/
def ofText (text : String) : Word :=
  match text.toList with
  | ['-', '-'] => .operandsFollow
  | '-' :: '-' :: option =>
    match option.dropWhile (· ≠ '=') with
    | _ :: value => ofLong (option.takeWhile (· ≠ '=')) (some (String.ofList value))
    | [] => ofLong option none
  | '-' :: 'o' :: value => .valued .output (attached? value)
  | '-' :: 'V' :: _ => .version
  | '-' :: _ :: _ => .unknown
  | _ => .operand text

end Word

/-! ### Lists of arguments -/

/-- What has been given so far. -/
structure Given where
  input : Option String := none
  output : Option String := none
  mode : Option Mode := none
  keepGoing : Bool := false
  config : Option String := none

namespace Given

/-- With an operand, unless it is empty or a second one. -/
def withOperand? (given : Given) (text : String) : Option Given :=
  if text.isEmpty || given.input.isSome then none else some { given with input := some text }

/-- With the value of an option, unless the option was given before or the value does not fit it. -/
def withValue? (given : Given) (option : ValuedOption) (value : String) : Option Given :=
  match option with
  | .output => if value.isEmpty || given.output.isSome then none else some { given with output := some value }
  | .config => if value.isEmpty || given.config.isSome then none else some { given with config := some value }
  | .mode =>
    if given.mode.isSome then none
    else (Mode.ofName? value).map fun mode => { given with mode := some mode }

/-- What is asked for when there are no more arguments: a run needs its input. -/
def finish (given : Given) : Invocation :=
  match given.input with
  | some input => .run ⟨input, given.output, given.mode, given.keepGoing, given.config⟩
  | none => .misuse

/-- Reads arguments that are all operands. -/
def operands (given : Given) : List String → Invocation
  | [] => given.finish
  | text :: rest =>
    match given.withOperand? text with
    | some given => given.operands rest
    | none => .misuse

/-- Reads arguments. -/
def arguments (given : Given) : List String → Invocation
  | [] => given.finish
  | text :: rest =>
    match Word.ofText text with
    | .operand text =>
      match given.withOperand? text with
      | some given => given.arguments rest
      | none => .misuse
    | .valued option (some value) =>
      match given.withValue? option value with
      | some given => given.arguments rest
      | none => .misuse
    | .valued option none =>
      match rest with
      | [] => .misuse
      | next :: rest =>
        match Word.ofText next with
        | .operand value =>
          match given.withValue? option value with
          | some given => given.arguments rest
          | none => .misuse
        | _ => .misuse
    | .keepGoing => if given.keepGoing then .misuse else { given with keepGoing := true }.arguments rest
    | .version => .version
    | .operandsFollow => given.operands rest
    | .unknown => .misuse

end Given

/-- What a list of arguments asks for.  The schema is asked for by the first argument alone, whatever
follows it. -/
def Invocation.ofArguments : List String → Invocation
  | "--schema" :: _ => .schema
  | arguments => Given.arguments {} arguments

end ScriptLowering.CommandLine
