import ScriptLowering.Tree.Expr

/-!
# Statements and declarations

* `VariableDecl`, `Parameter`, `EnumDecl`, `AliasDecl` — declarations without statements inside;
* `Stmt`, `Decl`, `TypeDecl`, `FunctionDecl`, `SwitchCase` — statements and declarations, which hold each
  other;
* `Decl.kind`, `Stmt.kind` — the word for a node in messages;
* `Stmt.isExit` — whether control leaves at a statement.

A block is the list of its statements.
-/

namespace ScriptLowering

/-- The declaration of a variable or of a field. -/
structure VariableDecl where
  name : String
  annotation : Option SourceType
  initializer : Option Expr
  isConstant : Bool
  isPrivate : Bool
  isStatic : Bool

/-- A parameter of a function.  Without a label the name is the label; the label `_` means that the argument
is passed by position. -/
structure Parameter where
  name : String
  label : Option String
  fallback : Option Expr
  isVariadic : Bool
  annotation : Option SourceType

/-- Whether the argument is passed by position. -/
def Parameter.isPositional (parameter : Parameter) : Bool := parameter.label = some "_"

/-- An enumeration of names. -/
structure EnumDecl where
  name : String
  cases : List String
deriving DecidableEq

/-- A further name for a type. -/
structure AliasDecl where
  name : String
  target : SourceType
deriving DecidableEq

/-- The kinds of types that have members. -/
inductive TypeKind where
  | struct
  | reference
  | protocol
deriving DecidableEq

/-- The word for a kind of type in messages. -/
def TypeKind.word : TypeKind → String
  | .struct => "struct"
  | .reference => "class"
  | .protocol => "protocol"

mutual

/-- A declaration. -/
inductive Decl where
  | variable (decl : VariableDecl)
  | type (kind : TypeKind) (decl : TypeDecl)
  | function (decl : FunctionDecl)
  | enumeration (decl : EnumDecl)
  | typeAlias (decl : AliasDecl)

/-- A type with its parents and members. -/
structure TypeDecl where
  name : String
  parents : List String
  members : List Decl

/-- A function with its parameters and body. -/
structure FunctionDecl where
  name : String
  parameters : List Parameter
  returnType : Option SourceType
  body : List Stmt
  isStatic : Bool

/-- A statement. -/
inductive Stmt where
  | decl (decl : Decl)
  | expr (value : Expr)
  | block (body : List Stmt)
  | ifThen (condition : Expr) (thenBranch : List Stmt) (elseBranch : Option Stmt)
  | ifLet (name : String) (value : Expr) (thenBranch : List Stmt) (elseBranch : Option Stmt)
  | guard (condition : Expr) (body : List Stmt)
  | guardLet (name : String) (value : Expr) (body : List Stmt)
  | switch (subject : Expr) (cases : List SwitchCase) (fallback : Option (List Stmt))
  | forIn (counter : String) (sequence : Expr) (body : List Stmt)
  | whileLoop (condition : Expr) (body : List Stmt)
  | repeatWhile (body : List Stmt) (condition : Expr)
  | returns (value : Option Expr)
  | breaks
  | continues
  | blank
  | doCatch (body : List Stmt) (binding : Option String) (handler : List Stmt)
  | throws (value : Expr)

/-- One case of a switch: its patterns share a body. -/
structure SwitchCase where
  patterns : List Expr
  body : List Stmt

end

/-- The word for a declaration in messages. -/
def Decl.kind : Decl → String
  | .variable _ => "variable"
  | .type kind _ => kind.word
  | .function _ => "function"
  | .enumeration _ => "enum"
  | .typeAlias _ => "type alias"

namespace Stmt

/-- The word for a statement in messages. -/
def kind : Stmt → String
  | .decl declared => declared.kind
  | .expr _ => "expression statement"
  | .block _ => "block"
  | .ifThen .. => "if"
  | .ifLet .. => "if-let"
  | .guard .. => "guard"
  | .guardLet .. => "guard-let"
  | .switch .. => "switch"
  | .forIn .. => "for-in"
  | .whileLoop .. => "while"
  | .repeatWhile .. => "repeat-while"
  | .returns _ => "return"
  | .breaks => "break"
  | .continues => "continue"
  | .blank => "blank"
  | .doCatch .. => "do-catch"
  | .throws _ => "throw"

/-- Whether control never goes on to the next statement. -/
def isExit : Stmt → Bool
  | .returns _ => true
  | .throws _ => true
  | .breaks => true
  | .continues => true
  | _ => false

end Stmt

end ScriptLowering
