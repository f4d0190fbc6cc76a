import ScriptLowering.Tree.Program

/-!
# Building trees

Short ways to write down the common nodes of a tree.  Each of them leaves what it does not name at its plain
value: no label, no annotation, no parents, nothing private or static.
-/

namespace ScriptLowering

namespace Literal

/-- A truth value. -/
def ofBool (value : Bool) : Literal := .generic (some (if value then "true" else "false"))

/-- The absent value. -/
def nil : Literal := .generic none

/-- A whole number, in decimal. -/
def ofInt (value : Int) : Literal := .int (toString value)

end Literal

namespace Argument

/-- An argument under a label. -/
def labeled (label : String) (value : Expr) : Argument := ⟨some label, value⟩

/-- An argument by position. -/
def positional (value : Expr) : Argument := ⟨none, value⟩

end Argument

namespace Parameter

/-- A parameter whose name is its label. -/
def named (name : String) : Parameter := ⟨name, none, none, false, none⟩

/-- A parameter passed by position. -/
def positional (name : String) : Parameter := ⟨name, some "_", none, false, none⟩

/-- A parameter passed under a label of its own. -/
def labeled (label name : String) : Parameter := ⟨name, some label, none, false, none⟩

/-- The parameter with a value for calls that leave it out. -/
def withFallback (parameter : Parameter) (value : Expr) : Parameter :=
  { parameter with fallback := some value }

/-- The parameter, taking any number of values. -/
def variadic (parameter : Parameter) : Parameter := { parameter with isVariadic := true }

/-- The parameter with a type. -/
def typed (parameter : Parameter) (type : SourceType) : Parameter :=
  { parameter with annotation := some type }

end Parameter

namespace VariableDecl

/-- A constant. -/
def constant (name : String) (initializer : Option Expr) : VariableDecl :=
  ⟨name, none, initializer, true, false, false⟩

/-- A variable that may be assigned. -/
def mutable (name : String) (initializer : Option Expr) : VariableDecl :=
  ⟨name, none, initializer, false, false, false⟩

/-- The variable with a type. -/
def typed (decl : VariableDecl) (type : SourceType) : VariableDecl :=
  { decl with annotation := some type }

end VariableDecl

/-- A type without parents. -/
def Decl.ofMembers (kind : TypeKind) (name : String) (members : List Decl) : Decl :=
  .type kind ⟨name, [], members⟩

/-- A function without a declared result. -/
def Decl.ofBody (name : String) (parameters : List Parameter) (body : List Stmt) : Decl :=
  .function ⟨name, parameters, none, body, false⟩

namespace Stmt

/-- The declaration of a constant. -/
def constant (name : String) (initializer : Expr) : Stmt :=
  .decl (.variable (.constant name (some initializer)))

/-- The declaration of a variable. -/
def mutable (name : String) (initializer : Option Expr) : Stmt :=
  .decl (.variable (.mutable name initializer))

end Stmt

end ScriptLowering
