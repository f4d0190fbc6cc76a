import ScriptLowering.Json.Basic
import ScriptLowering.Tree.Program

/-!
# Writing trees as documents

* `SourceType.toJson`, `Expr.toJson`, `Stmt.toJson`, `Decl.toJson`, `Parameter.toJson`, `Item.toJson`,
  `Program.toJson` — the document of a tree.

Every field is written: a missing value as `null`, and a default as itself.  A form without content is its
name alone, and any other form is an object with the name as its only key.
-/

namespace ScriptLowering

namespace Json

/-- A form with its content. -/
def form (name : String) (content : Json) : Json := .object [(name, content)]

/-- A form whose content is a record. -/
def recordForm (name : String) (fields : List (String × Json)) : Json := form name (.object fields)

/-- A value that may be missing. -/
def ofOption : Option Json → Json
  | some document => document
  | none => .null

/-- A text that may be missing. -/
def ofText : Option String → Json
  | some text => .string text
  | none => .null

/-- A list of texts. -/
def ofTexts (texts : List String) : Json := .array (texts.map .string)

end Json

open Json (form recordForm ofOption ofText ofTexts)

/-! ### Types and expressions -/

/-- The document of a type. -/
def SourceType.toJson : SourceType → Json
  | .named name => form "named" (.string name)
  | .array element => form "array" element.toJson
  | .dictionary key value => recordForm "dictionary" [("key", key.toJson), ("value", value.toJson)]
  | .optional wrapped => form "optional" wrapped.toJson

/-- The document of a literal. -/
def Literal.toJson : Literal → Json
  | .generic text => form "generic" (ofText text)
  | .string value multiline => recordForm "string" [("value", .string value), ("multiline", .bool multiline)]
  | .int text => form "int" (.string text)
  | .double text => form "double" (.string text)

/-- The document of a kind of `try`. -/
def TryKind.toJson : TryKind → Json
  | .plain => .string "plain"
  | .optional => .string "optional"
  | .forced => .string "forced"

namespace Expr

mutual

/-- The document of an expression. -/
def toJson : Expr → Json
  | .assign target operator value =>
    recordForm "assign" [("target", target.toJson), ("operator", .string operator), ("value", value.toJson)]
  | .ternary condition thenValue elseValue =>
    recordForm "ternary" [("condition", condition.toJson), ("then_value", thenValue.toJson),
      ("else_value", elseValue.toJson)]
  | .binary operator left right =>
    recordForm "binary" [("operator", .string operator), ("left", left.toJson), ("right", right.toJson)]
  | .logical operator left right =>
    recordForm "logical" [("operator", .string operator), ("left", left.toJson), ("right", right.toJson)]
  | .unary operator operand =>
    recordForm "unary" [("operator", .string operator), ("operand", operand.toJson)]
  | .call callee arguments construction =>
    recordForm "call" [("callee", callee.toJson), ("arguments", .array (argumentsToJson arguments)),
      ("initializer", .bool construction)]
  | .member object name => recordForm "member" [("object", object.toJson), ("name", .string name)]
  | .index object position => recordForm "index" [("object", object.toJson), ("index", position.toJson)]
  | .optionalChain value forced =>
    recordForm "optional_chain" [("value", value.toJson), ("forced", .bool forced)]
  | .cast value target => recordForm "cast" [("value", value.toJson), ("target", target.toJson)]
  | .typeTest value target => recordForm "type_test" [("value", value.toJson), ("target", target.toJson)]
  | .attempt value kind => recordForm "try" [("value", value.toJson), ("mode", kind.toJson)]
  | .literal value => form "literal" value.toJson
  | .itself => .string "self"
  | .variable name => form "variable" (.string name)
  | .grouping inner => form "grouping" inner.toJson
  | .array items => form "array" (.array (listToJson items))
  | .dictionary entries => form "dictionary" (.array (entriesToJson entries))
  | .range lower upper inclusive =>
    recordForm "range" [("lower", lower.toJson), ("upper", upper.toJson), ("inclusive", .bool inclusive)]

/-- The documents of some expressions. -/
def listToJson : List Expr → List Json
  | [] => []
  | item :: rest => item.toJson :: listToJson rest

/-- The documents of some arguments. -/
def argumentsToJson : List Argument → List Json
  | [] => []
  | ⟨label, value⟩ :: rest =>
    .object [("label", ofText label), ("value", value.toJson)] :: argumentsToJson rest

/-- The documents of some dictionary entries. -/
def entriesToJson : List DictionaryEntry → List Json
  | [] => []
  | ⟨key, value⟩ :: rest => .object [("key", key.toJson), ("value", value.toJson)] :: entriesToJson rest

end

end Expr

/-! ### Statements and declarations -/

/-- The document of a variable. -/
def VariableDecl.toJson (decl : VariableDecl) : Json :=
  .object [("name", .string decl.name), ("type_annotation", ofOption (decl.annotation.map (·.toJson))),
    ("initializer", ofOption (decl.initializer.map (·.toJson))), ("constant", .bool decl.isConstant),
    ("private", .bool decl.isPrivate), ("is_static", .bool decl.isStatic)]

/-- The document of a parameter. -/
def Parameter.toJson (parameter : Parameter) : Json :=
  .object [("name", .string parameter.name), ("label", ofText parameter.label),
    ("default", ofOption (parameter.fallback.map (·.toJson))), ("variadic", .bool parameter.isVariadic),
    ("type_annotation", ofOption (parameter.annotation.map (·.toJson)))]

/-- The document of an enumeration. -/
def EnumDecl.toJson (decl : EnumDecl) : Json :=
  .object [("name", .string decl.name), ("cases", ofTexts decl.cases)]

/-- The document of a further name for a type. -/
def AliasDecl.toJson (decl : AliasDecl) : Json :=
  .object [("name", .string decl.name), ("target", decl.target.toJson)]

mutual

/-- The document of a declaration. -/
def Decl.toJson : Decl → Json
  | .variable decl => form "variable" decl.toJson
  | .type kind ⟨name, parents, members⟩ =>
    recordForm kind.word [("name", .string name), ("inherits", ofTexts parents),
      ("members", .array (membersToJson members))]
  | .function ⟨name, parameters, returnType, body, isStatic⟩ =>
    recordForm "function" [("name", .string name), ("params", .array (parameters.map (·.toJson))),
      ("return_type", ofOption (returnType.map (·.toJson))), ("body", .array (blockToJson body)),
      ("is_static", .bool isStatic)]
  | .enumeration decl => form "enum" decl.toJson
  | .typeAlias decl => form "type_alias" decl.toJson

/-- The documents of some declarations. -/
def membersToJson : List Decl → List Json
  | [] => []
  | member :: rest => member.toJson :: membersToJson rest

/-- The document of a statement. -/
def Stmt.toJson : Stmt → Json
  | .decl declared => form "decl" declared.toJson
  | .expr value => form "expr" value.toJson
  | .block body => form "block" (.array (blockToJson body))
  | .ifThen condition thenBranch elseBranch =>
    recordForm "if" [("condition", condition.toJson), ("then_branch", .array (blockToJson thenBranch)),
      ("else_branch", elseToJson elseBranch)]
  | .ifLet name value thenBranch elseBranch =>
    recordForm "if_let" [("name", .string name), ("value", value.toJson),
      ("then_branch", .array (blockToJson thenBranch)), ("else_branch", elseToJson elseBranch)]
  | .guard condition body =>
    recordForm "guard" [("condition", condition.toJson), ("body", .array (blockToJson body))]
  | .guardLet name value body =>
    recordForm "guard_let" [("name", .string name), ("value", value.toJson),
      ("body", .array (blockToJson body))]
  | .switch subject cases fallback =>
    recordForm "switch" [("subject", subject.toJson), ("cases", .array (casesToJson cases)),
      ("default", fallbackToJson fallback)]
  | .forIn counter sequence body =>
    recordForm "for_in" [("variable", .string counter), ("sequence", sequence.toJson),
      ("body", .array (blockToJson body))]
  | .whileLoop condition body =>
    recordForm "while" [("condition", condition.toJson), ("body", .array (blockToJson body))]
  | .repeatWhile body condition =>
    recordForm "repeat" [("body", .array (blockToJson body)), ("condition", condition.toJson)]
  | .returns value => form "return" (ofOption (value.map (·.toJson)))
  | .breaks => .string "break"
  | .continues => .string "continue"
  | .blank => .string "blank"
  | .doCatch body binding handler =>
    recordForm "do_catch" [("body", .array (blockToJson body)), ("binding", ofText binding),
      ("handler", .array (blockToJson handler))]
  | .throws value => form "throw" value.toJson

/-- The documents of some statements. -/
def blockToJson : List Stmt → List Json
  | [] => []
  | statement :: rest => statement.toJson :: blockToJson rest

/-- The document of the other branch of a conditional. -/
def elseToJson : Option Stmt → Json
  | some statement => statement.toJson
  | none => .null

/-- The document of what a switch does when no case fits. -/
def fallbackToJson : Option (List Stmt) → Json
  | some body => .array (blockToJson body)
  | none => .null

/-- The documents of some cases. -/
def casesToJson : List SwitchCase → List Json
  | [] => []
  | ⟨patterns, body⟩ :: rest =>
    .object [("patterns", .array (patterns.map (·.toJson))), ("body", .array (blockToJson body))] ::
      casesToJson rest

end

/-! ### Programs -/

/-- The document of a place. -/
def Span.toJson (span : Span) : Json :=
  .object [("line", .natural span.line.toNat), ("column", .natural span.column.toNat)]

/-- The document of an item. -/
def Item.toJson (item : Item) : Json :=
  .object [("node", item.node.toJson), ("span", ofOption (item.span.map (·.toJson)))]

/-- The document of a program. -/
def Program.toJson (program : Program) : Json :=
  .object [("items", .array (program.items.map (·.toJson)))]

end ScriptLowering
