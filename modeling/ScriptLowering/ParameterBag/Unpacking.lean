import ScriptLowering.Expression
import ScriptLowering.Layout

/-!
# Taking parameters out of the bag

* `ParameterBag.formalText` — the formal parameter of a function;
* `ParameterBag.unpack` — the entries that take parameters of one value out of the bag;
* `ParameterBag.collectSteps` — the lines that collect the values of a variadic parameter;
* `ParameterBag.parameterSteps` — all lines at the top of a function.
-/

namespace ScriptLowering.ParameterBag

/-- The formal parameter list of a function. -/
def formalText (parameters : List Parameter) : String :=
  if parameters.isEmpty then "()" else "(" ++ bagName ++ ": any = \x7b\x7d)"

/-- What a parameter's value falls back on, after its key. -/
def fallbackText (mode : Mode) : Option Expr → Except Fault String
  | some value => do
    let text ← value.text mode
    return " = " ++ text
  | none => return ""

/-- How a parameter is taken out of the bag: its key, and the name it goes to where that differs. -/
def entryText (key raw : String) : String := if key = raw then key else key ++ ": " ++ raw

/-- The entries that take the parameters of one value out of the bag, and the lines that bind them; the first
parameter stands at the given position. -/
def unpack (mode : Mode) (index : Nat) : List Parameter → Except Fault (List String × List Step)
  | [] => return ([], [])
  | parameter :: rest =>
    if parameter.isVariadic then unpack mode (index + 1) rest
    else do
      let name := Identifier.safe parameter.name
      let raw := mode.rawName name
      let fallback ← fallbackText mode parameter.fallback
      let entry := entryText (parameterKey index parameter) raw ++ fallback
      let binding := Step.ofOption (mode.bindRaw name raw (SourceType.textOf parameter.annotation))
      let (entries, bindings) ← unpack mode (index + 1) rest
      return (entry :: entries, binding ++ bindings)

/-- The lines that select the values at positions after the threshold, in the order of their positions. -/
def tailSteps (threshold : Nat) (terminator : String) : List Step :=
  [.line ".filter(([key]) => /^_\\d+$/.test(key))",
    .line ".map(([key, value]): [number, any] => [Number(key.slice(1)), value])",
    .line (".filter(([position]) => position > " ++ toString threshold ++ ")"),
    .line ".sort((a, b) => a[0] - b[0])",
    .line (".map(([, value]) => value)" ++ terminator)]

/-- The lines that collect the values of a variadic parameter into `raw`.  Under a label the first value
stands at the label, in front of those at the positions. -/
def collectSteps (label : Option String) (raw : String) (threshold : Nat) : List Step :=
  match label with
  | none =>
    [.line ("const " ++ raw ++ " = Object.entries(" ++ bagName ++ ")"), .indent] ++
      tailSteps threshold ";" ++ [.outdent]
  | some label =>
    let key := Quoted.literal label
    [.line ("const " ++ raw ++ " = ["), .indent,
      .line ("...(" ++ key ++ " in " ++ bagName ++ " ? [" ++ bagName ++ "[" ++ key ++ "]] : []),"),
      .line ("...Object.entries(" ++ bagName ++ ")"), .indent] ++
      tailSteps threshold "," ++ [.outdent, .outdent, .line "];"]

/-- The type tag of a variadic parameter whose values have the given type. -/
def variadicTag : Option SourceType → String
  | some element => (SourceType.array element).text
  | none => SourceType.unknown ++ "[]"

/-- The lines for a variadic parameter. -/
def variadicSteps (mode : Mode) (threshold : Nat) (parameter : Parameter) : List Step :=
  let name := Identifier.safe parameter.name
  let raw := mode.rawName name
  collectSteps (effectiveLabel parameter) raw threshold ++
    Step.ofOption (mode.bindRaw name raw (variadicTag parameter.annotation))

/-- The lines at the top of a function that take its parameters out of the bag. -/
def parameterSteps (mode : Mode) (parameters : List Parameter) : Except Fault (List Step) := do
  let (entries, bindings) ← unpack mode 0 parameters
  let taken : List Step :=
    if entries.isEmpty then []
    else [.line ("const \x7b " ++ Text.joinWith ", " entries ++ " \x7d = " ++ bagName ++ ";")]
  let variadic :=
    match parameters.find? (·.isVariadic) with
    | some parameter => variadicSteps mode (threshold parameters) parameter
    | none => []
  return taken ++ bindings ++ variadic

end ScriptLowering.ParameterBag
