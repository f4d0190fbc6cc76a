import ScriptLowering.Declaration
import ScriptLowering.Emission

/-!
# Statements

* `unwrap`, `patternSteps`, `loopSteps`, `catchSteps` — the parts of statements that hold no statements;
* `Stmt.steps`, `Decl.steps` — the steps that write a statement or a declaration;
* `Stmt.write` — a statement on a page;
* `Stmt.lower` — the text of a statement on a page of its own.
-/

namespace ScriptLowering

/-! ### Parts of statements -/

/-- What a statement that unwraps a value needs: the lines in front of it, the text to test and the lines
that bind the unwrapped value.  A variable unwrapped under its own name needs no temporary. -/
structure Unwrapping where
  before : List Step
  subject : String
  binding : List Step

/-- Prepares the unwrapping of a value under a name. -/
def unwrap (mode : Mode) (name : String) (value : Expr) : Emission Unwrapping := do
  let text ← value.text mode
  if value.isVariable name then return ⟨[], text, []⟩
  else
    let temporary ← drawTemporary .opt
    return ⟨[.keep temporary text], temporary.name,
      Step.ofOption (mode.bindRaw (Identifier.safe name) temporary.name SourceType.unknown)⟩

/-- The label of one pattern of a switch. -/
def caseLabel (mode : Mode) (pattern : Expr) : Except Fault String :=
  match pattern with
  | .range .. => .error (.unsupported .rangePattern)
  | pattern => do
    let text ← pattern.text mode
    return "case " ++ text ++ ":"

/-- The steps for the patterns of a case; the last one opens its body. -/
def patternSteps (mode : Mode) : List Expr → Except Fault (List Step)
  | [] => .error (.unsupported .caseWithoutPatterns)
  | [pattern] => do
    let label ← caseLabel mode pattern
    return [.opening label]
  | pattern :: next :: rest => do
    let label ← caseLabel mode pattern
    let others ← patternSteps mode (next :: rest)
    return .line label :: others

/-- The header of a loop, and the lines that bind its variable. -/
def loopSteps (mode : Mode) (counter : String) (sequence : Expr) : Emission (List Step) := do
  let name := Identifier.safe counter
  let raw := mode.rawName name
  match sequence with
  | .range lower upper inclusive =>
    let lowerText ← lower.text mode
    let upperText ← upper.text mode
    let bound ← if upper.isNumber then pure none else some <$> drawTemporary .bound
    return .loop ⟨raw, lowerText, upperText, inclusive, bound⟩ :: Step.ofOption (mode.bindRaw name raw "number")
  | sequence =>
    let text ← sequence.text mode
    return .opening ("for (const " ++ raw ++ " of " ++ text ++ ")") ::
      Step.ofOption (mode.bindRaw name raw SourceType.unknown)

/-- The name under which a caught error is bound. -/
def caughtName : String := "error"

/-- The step from the body of a `try` to its handler, and the lines that bind the error. -/
def catchSteps (mode : Mode) : List Step :=
  let raw := mode.rawName caughtName
  .reopening ("catch (" ++ raw ++ ")") :: Step.ofOption (mode.bindRaw caughtName raw SourceType.unknown)

/-- Whether the last statement of a block leaves it. -/
def endsInExit (body : List Stmt) : Bool :=
  match body.getLast? with
  | some statement => statement.isExit
  | none => false

/-! ### Statements and declarations -/

mutual

/-- The steps that write a statement. -/
def Stmt.steps (mode : Mode) : Stmt → Emission (List Step)
  | .decl declared => declared.steps mode .block
  | .expr value => do
    let text ← value.text mode
    return [.line (text ++ ";")]
  | .block body => blockSteps mode body
  | .ifThen condition thenBranch elseBranch => do
    let test ← condition.conditionText mode
    let thenSteps ← blockSteps mode thenBranch
    let elseSteps ← elseSteps mode elseBranch
    return .opening ("if (" ++ test ++ ")") :: thenSteps ++ elseSteps
  | .ifLet name value thenBranch elseBranch => do
    let unwrapping ← unwrap mode name value
    let thenSteps ← blockSteps mode thenBranch
    let elseSteps ← elseSteps mode elseBranch
    return unwrapping.before ++ .opening ("if (!__isNil(" ++ unwrapping.subject ++ "))") ::
      unwrapping.binding ++ thenSteps ++ elseSteps
  | .guard condition body => do
    let test ← condition.text mode
    let bodySteps ← blockSteps mode body
    return .opening ("if (!" ++ test ++ ")") :: bodySteps ++ [.closing ""]
  | .guardLet name value body => do
    let unwrapping ← unwrap mode name value
    let bodySteps ← blockSteps mode body
    let leave : List Step := if endsInExit body then [] else [.line "return;"]
    return unwrapping.before ++ .opening ("if (__isNil(" ++ unwrapping.subject ++ "))") ::
      bodySteps ++ leave ++ .closing "" :: unwrapping.binding
  | .switch subject cases fallback => do
    let subject ← subject.conditionText mode
    let caseSteps ← switchSteps mode cases
    let fallbackSteps ← fallbackSteps mode fallback
    return .opening ("switch (" ++ subject ++ ")") :: caseSteps ++ fallbackSteps ++ [.closing ""]
  | .forIn counter sequence body => do
    let header ← loopSteps mode counter sequence
    let bodySteps ← blockSteps mode body
    return header ++ bodySteps ++ [.closing ""]
  | .whileLoop condition body => do
    let test ← condition.conditionText mode
    let bodySteps ← blockSteps mode body
    return .opening ("while (" ++ test ++ ")") :: bodySteps ++ [.closing ""]
  | .repeatWhile body condition => do
    let bodySteps ← blockSteps mode body
    let test ← condition.conditionText mode
    return .opening "do" :: bodySteps ++ [.closing (" while (" ++ test ++ ");")]
  | .returns none => return [.line "return;"]
  | .returns (some value) => do
    let text ← value.text mode
    return [.line ("return " ++ text ++ ";")]
  | .breaks => return [.line "break;"]
  | .continues => return [.line "continue;"]
  | .blank => return [.line ";"]
  | .doCatch body _ handler => do
    let bodySteps ← blockSteps mode body
    let handlerSteps ← blockSteps mode handler
    return .opening "try" :: bodySteps ++ catchSteps mode ++ handlerSteps ++ [.closing ""]
  | .throws value => do
    let text ← value.text mode
    return [.line ("throw " ++ text ++ ";")]

/-- The steps that write the statements of a block. -/
def blockSteps (mode : Mode) : List Stmt → Emission (List Step)
  | [] => return []
  | statement :: rest => do
    let first ← statement.steps mode
    let others ← blockSteps mode rest
    return first ++ others

/-- The steps that end a conditional whose first branch is open.  A conditional in the other branch is
chained; one that unwraps a value needs lines in front of it, so it is nested. -/
def elseSteps (mode : Mode) : Option Stmt → Emission (List Step)
  | none => return [.closing ""]
  | some (.ifThen condition thenBranch elseBranch) => do
    let test ← condition.conditionText mode
    let thenSteps ← blockSteps mode thenBranch
    let rest ← elseSteps mode elseBranch
    return .reopening ("else if (" ++ test ++ ")") :: thenSteps ++ rest
  | some (.block body) => do
    let bodySteps ← blockSteps mode body
    return .reopening "else" :: bodySteps ++ [.closing ""]
  | some statement => do
    let steps ← statement.steps mode
    return .reopening "else" :: steps ++ [.closing ""]

/-- The steps that write the cases of a switch.  No case falls through to the next. -/
def switchSteps (mode : Mode) : List SwitchCase → Emission (List Step)
  | [] => return []
  | ⟨patterns, body⟩ :: rest => do
    let labels ← patternSteps mode patterns
    let bodySteps ← blockSteps mode body
    let others ← switchSteps mode rest
    return labels ++ bodySteps ++ [.line "break;", .closing ""] ++ others

/-- The steps that write what a switch does when no case fits. -/
def fallbackSteps (mode : Mode) : Option (List Stmt) → Emission (List Step)
  | none => return []
  | some body => do
    let bodySteps ← blockSteps mode body
    return .opening "default:" :: bodySteps ++ [.line "break;", .closing ""]

/-- The steps that write a declaration. -/
def Decl.steps (mode : Mode) (scope : Scope) : Decl → Emission (List Step)
  | .variable decl => do
    let line ← decl.line mode scope
    return [line]
  | .enumeration decl => return [decl.line mode scope]
  | .typeAlias decl => return [decl.line scope]
  | .type kind ⟨name, parents, members⟩ =>
    match scope with
    | .member => throw (.unsupported (.nestedType kind))
    | .block => do
      let memberSteps ← memberSteps mode members
      return .opening (TypeDecl.header kind ⟨name, parents, members⟩) ::
        TypeDecl.memberwise kind ⟨name, parents, members⟩ ++ memberSteps ++ [.closing ""]
  | .function ⟨name, parameters, returnType, body, isStatic⟩ => do
    FunctionDecl.check scope ⟨name, parameters, returnType, body, isStatic⟩
    let taken ← ParameterBag.parameterSteps mode parameters
    let bodySteps ← blockSteps mode body
    return .opening (FunctionDecl.header scope ⟨name, parameters, returnType, body, isStatic⟩) ::
      taken ++ bodySteps ++ [.closing ""]

/-- The steps that write the members of a type. -/
def memberSteps (mode : Mode) : List Decl → Emission (List Step)
  | [] => return []
  | decl :: rest => do
    let first ← decl.steps mode .member
    let others ← memberSteps mode rest
    return first ++ others

end

/-! ### Pages -/

/-- Writes a statement on a page, when some temporaries are already drawn.  Gives the page and the number of
temporaries drawn after that. -/
def Stmt.write (mode : Mode) (statement : Stmt) (page : Page) (drawn : Nat) : Except Fault (Page × Nat) := do
  let (steps, drawn) ← (statement.steps mode).run drawn
  return (page.write steps, drawn)

/-- The text of a statement on a page of its own. -/
def Stmt.lower (mode : Mode) (statement : Stmt) : Except Fault String := do
  let (page, _) ← statement.write mode .blank 0
  return page.text

end ScriptLowering
