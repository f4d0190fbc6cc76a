import ScriptLowering.Literal.Quoted
import ScriptLowering.Mode
import ScriptLowering.TypeText

/-!
# Bindings

* `Keyword`, `Binding` — a variable, field or enumeration about to be written;
* `Binding.lead` — what stands in front of its name;
* `Mode.variableText`, `Mode.enumerationText` — its declaration in each mode;
* `Mode.bindRaw` — the statement that binds a name to a value already at hand, where one is needed.
-/

namespace ScriptLowering

/-- The word that declares a variable in a block. -/
inductive Keyword where
  | constant
  | changeable
deriving DecidableEq

/-- A variable, field or enumeration about to be written.  There is no keyword among the members of a type. -/
structure Binding where
  keyword : Option Keyword
  isStatic : Bool
  name : String
  annotation : Option SourceType
  /-- The text of the initial value. -/
  initializer : Option String
  isConstant : Bool
  isPrivate : Bool

/-- What stands in front of the name. -/
def Binding.lead (binding : Binding) : String :=
  match binding.keyword with
  | some .constant => "const "
  | some .changeable => "let "
  | none => if binding.isStatic then "static " else ""

namespace Mode

/-! ### Records -/

/-- The text of a record with the given fields. -/
def recordText (fields : List String) : String := "\x7b " ++ Text.joinWith ", " fields ++ " \x7d"

/-- The fields of the record for a variable. -/
def recordFields (binding : Binding) : List String :=
  ["value: " ++ binding.initializer.getD "null",
    "type: " ++ Quoted.literal (SourceType.textOf binding.annotation)] ++
    (if binding.isConstant then ["constant: true"] else []) ++
    (if binding.isPrivate then ["private: true"] else []) ++
    (if binding.initializer.isNone then ["uninitialized: true"] else [])

/-- The record of a constant with the given value and type tag. -/
def constantRecord (value tag : String) : String :=
  recordText ["value: " ++ value, "type: " ++ Quoted.literal tag, "constant: true"]

/-! ### Declarations -/

/-- An annotation after a name. -/
def annotationText : Option SourceType → String
  | some type => ": " ++ type.text
  | none => ""

/-- An initial value after a name. -/
def initialText : Option String → String
  | some value => " = " ++ value
  | none => ""

/-- The declaration of a variable or field. -/
def variableText (mode : Mode) (binding : Binding) : String :=
  match mode with
  | .native =>
    binding.lead ++ binding.name ++ annotationText binding.annotation ++ initialText binding.initializer ++ ";"
  | .managed => binding.lead ++ binding.name ++ " = " ++ recordText (recordFields binding) ++ ";"

/-- The value of an enumeration without cases. -/
def emptyEnumeration : String := "Object.freeze(\x7b\x7d)"

/-- The declaration of an enumeration. -/
def enumerationText (mode : Mode) (binding : Binding) : String :=
  let value := binding.initializer.getD emptyEnumeration
  match mode with
  | .native => binding.lead ++ binding.name ++ " = " ++ value ++ ";"
  | .managed => binding.lead ++ binding.name ++ " = " ++ constantRecord value "enum" ++ ";"

/-- The statement that binds `name` to the value in `raw`; none is needed where they are one variable. -/
def bindRaw (mode : Mode) (name raw tag : String) : Option String :=
  match mode with
  | .native => if name = raw then none else some ("const " ++ name ++ " = " ++ raw ++ ";")
  | .managed => some ("const " ++ name ++ " = " ++ constantRecord raw tag ++ ";")

end Mode

end ScriptLowering
