import ScriptLowering.ParameterBag.Unpacking

/-!
# Declarations

The parts of declarations that hold no statements.

* `Scope` — where a declaration stands;
* `VariableDecl.line`, `EnumDecl.line`, `AliasDecl.line` — declarations of one line;
* `TypeDecl.header`, `TypeDecl.memberwise` — the header of a type, and the constructor it is given;
* `FunctionDecl.header`, `FunctionDecl.check` — the header of a function, and whether it may stand there.
-/

namespace ScriptLowering

/-- Where a declaration stands. -/
inductive Scope where
  /-- At the top level or among statements. -/
  | block
  /-- Among the members of a type. -/
  | member
deriving DecidableEq

/-- The source name of a function that makes a value of its type. -/
def initializerName : String := "init"

/-- The line for a variable or field. -/
def VariableDecl.line (mode : Mode) (scope : Scope) (decl : VariableDecl) : Except Fault Step := do
  let initializer ← decl.initializer.mapM (·.text mode)
  let keyword :=
    match scope with
    | .block => some (if decl.isConstant && initializer.isSome then Keyword.constant else .changeable)
    | .member => none
  return .line (mode.variableText
    { keyword, isStatic := decl.isStatic, name := Identifier.safe decl.name, annotation := decl.annotation,
      initializer, isConstant := decl.isConstant, isPrivate := decl.isPrivate })

/-- The value of an enumeration. -/
def EnumDecl.valueText (decl : EnumDecl) : String :=
  match decl.cases with
  | [] => Mode.emptyEnumeration
  | cases =>
    "Object.freeze(\x7b " ++
      Text.joinWith ", " (cases.map fun name => Identifier.safe name ++ ": " ++ Quoted.literal name) ++ " \x7d)"

/-- The line for an enumeration. -/
def EnumDecl.line (mode : Mode) (scope : Scope) (decl : EnumDecl) : Step :=
  .line (mode.enumerationText
    { keyword := if scope = .block then some .constant else none, isStatic := scope = .member,
      name := Identifier.safe decl.name, annotation := none, initializer := some decl.valueText,
      isConstant := true, isPrivate := false })

/-- The line for a further name of a type. -/
def AliasDecl.line (scope : Scope) (decl : AliasDecl) : Step :=
  let keyword := match scope with
    | .block => "const "
    | .member => "static "
  .line (keyword ++ Identifier.safe decl.name ++ " = " ++ Quoted.literal decl.target.text ++ ";")

/-- Whether a declaration is a function that makes a value of its type. -/
def Decl.isInitializer : Decl → Bool
  | .function decl => decl.name = initializerName
  | _ => false

/-- The header of a type. -/
def TypeDecl.header (kind : TypeKind) (decl : TypeDecl) : String :=
  "class " ++ Identifier.safe decl.name ++
    match kind, decl.parents with
    | .reference, parent :: _ => " extends " ++ Identifier.safe parent
    | _, _ => ""

/-- The constructor of a struct that declares none: it takes every field out of the bag. -/
def TypeDecl.memberwise (kind : TypeKind) (decl : TypeDecl) : List Step :=
  if kind = .struct && !decl.members.any Decl.isInitializer then
    [.opening ("constructor(" ++ ParameterBag.bagName ++ ": any = \x7b\x7d)"),
      .line ("Object.assign(this, " ++ ParameterBag.bagName ++ ");"), .closing ""]
  else []

/-- The header of a function. -/
def FunctionDecl.header (scope : Scope) (decl : FunctionDecl) : String :=
  let formal := ParameterBag.formalText decl.parameters
  if decl.name = initializerName then "constructor" ++ formal
  else
    let lead := match scope with
      | .block => "function "
      | .member => if decl.isStatic then "static " else ""
    lead ++ Identifier.safe decl.name ++ formal ++ Mode.annotationText decl.returnType

/-- Whether a function may stand where it does with the parameters it has. -/
def FunctionDecl.check (scope : Scope) (decl : FunctionDecl) : Except Fault Unit :=
  if decl.name = initializerName ∧ scope = .block then .error (.unsupported .looseInitializer)
  else
    match ParameterBag.misplaced? decl.parameters with
    | some parameter => .error (.misplacedVariadic decl.name parameter.name)
    | none => .ok ()

end ScriptLowering
