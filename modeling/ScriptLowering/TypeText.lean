import ScriptLowering.Text
import ScriptLowering.Tree.SourceType

/-!
# The text of a type

* `SourceType.nameText` — what a type name is emitted as;
* `SourceType.text` — the annotation emitted for a type;
* `SourceType.textOf` — the same where the type may be missing.
-/

namespace ScriptLowering.SourceType

/-- What a type name is emitted as: the names of basic types have a name of their own, any other is kept. -/
def nameText : String → String
  | "Int" => "number"
  | "Int8" => "number"
  | "Int16" => "number"
  | "Int32" => "number"
  | "Int64" => "number"
  | "UInt" => "number"
  | "UInt8" => "number"
  | "UInt16" => "number"
  | "UInt32" => "number"
  | "UInt64" => "number"
  | "Float" => "number"
  | "Float32" => "number"
  | "Float64" => "number"
  | "Double" => "number"
  | "CGFloat" => "number"
  | "String" => "string"
  | "Character" => "string"
  | "Substring" => "string"
  | "Bool" => "boolean"
  | "Any" => "any"
  | "AnyObject" => "any"
  | "Void" => "void"
  | name => name

/-- The annotation where no type is known. -/
def unknown : String := "any"

/-- What makes a type optional, after its text. -/
def absence : String := " | null | undefined"

/-- The text of an array whose elements have the given text.  A union of types is put into parentheses. -/
def arrayText (element : String) : String :=
  if Text.occurs " | ".toList element.toList then "(" ++ element ++ ")[]" else element ++ "[]"

/-- The text of the optional of a type with the given text.  An optional of an optional is one optional. -/
def optionalText (wrapped : String) : String :=
  if absence.toList.isSuffixOf wrapped.toList then wrapped else wrapped ++ absence

/-- The annotation emitted for a type. -/
def text : SourceType → String
  | .named name => nameText name
  | .array element => arrayText element.text
  | .dictionary key value => "\x7b [key: " ++ key.text ++ "]: " ++ value.text ++ " \x7d"
  | .optional wrapped => optionalText wrapped.text

/-- The annotation for a type that may be missing. -/
def textOf : Option SourceType → String
  | some type => type.text
  | none => unknown

end ScriptLowering.SourceType
