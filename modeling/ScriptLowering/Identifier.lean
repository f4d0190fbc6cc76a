/-!
# Identifiers

Some names that a source program may use are reserved in the emitted script, and the anonymous parameters
`$0`, `$1`, … have no name there at all.

* `Identifier.reserved` — the words that no emitted name may be;
* `Identifier.isAnonymous` — whether a name is `$` followed by digits;
* `Identifier.safe` — the name under which a source name is emitted.
-/

namespace ScriptLowering.Identifier

/-- The words that no emitted name may be, in alphabetical order. -/
def reserved : List String :=
  ["arguments", "await", "break", "case", "catch", "class", "const", "continue", "debugger", "default",
    "delete", "do", "else", "enum", "eval", "export", "extends", "false", "finally", "for", "function", "if",
    "implements", "import", "in", "instanceof", "interface", "let", "new", "null", "package", "private",
    "protected", "public", "return", "static", "super", "switch", "this", "throw", "true", "try", "typeof",
    "undefined", "var", "void", "while", "with", "yield"]

/-- Whether a name is one of the reserved words. -/
def isReserved (name : String) : Bool := reserved.contains name

/-- The digits of an anonymous parameter, `$` followed by at least one digit. -/
def anonymousDigits? (name : String) : Option (List Char) :=
  match name.toList with
  | '$' :: c :: digits => if (c :: digits).all Char.isDigit then some (c :: digits) else none
  | _ => none

/-- Whether a name is an anonymous parameter. -/
def isAnonymous (name : String) : Bool := (anonymousDigits? name).isSome

/-- The name under which a source name is emitted: a reserved word gets an underscore, and `$` in front of a
number becomes `__arg`. -/
def safe (name : String) : String :=
  if isReserved name then name ++ "_"
  else
    match anonymousDigits? name with
    | some digits => "__arg" ++ String.ofList digits
    | none => name

/-- Any other name is emitted as it is. -/
theorem safe_eq_self {name : String} (hr : isReserved name = false) (ha : anonymousDigits? name = none) :
    safe name = name := by
  simp [safe, hr, ha]

end ScriptLowering.Identifier
