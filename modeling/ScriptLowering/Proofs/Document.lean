import ScriptLowering.Options
import ScriptLowering.Proofs.Record
import ScriptLowering.Tree.Program

/-!
# Which documents spell a tree

A tree has many spellings: the members of an object may come in any order, a record may be a list, and a field
that holds nothing or its default may be left out.  The relations here follow the tree and say, for each form,
under which name and with which fields it is spelled.  No reader is mentioned.

* `SourceType.Spelling`, `Literal.Spelling`, `Expr.Spelling` — the documents that spell a type, a literal or an
  expression;
* `VariableDecl.Spelling`, `Parameter.Spelling`, `EnumDecl.Spelling`, `AliasDecl.Spelling` — declarations without
  statements inside;
* `Decl.Spelling`, `Stmt.Spelling` — declarations and statements;
* `Item.Spelling`, `Program.Spelling`, `Options.Spelling` — programs, and options for lowering them.

A block is spelled by the array of its statements.
-/

namespace ScriptLowering

open Json (IsRecord IsChoice IsAlone IsText IsBool IsWord32 IsArray IsList IsNullable)

/-! ### Types and expressions -/

/-- The documents that spell a type. -/
def SourceType.Spelling : SourceType → Json → Prop
  | .named name => IsChoice "named" (IsText name)
  | .array element => IsChoice "array" element.Spelling
  | .dictionary key value =>
    IsChoice "dictionary" (IsRecord [.required "key" key.Spelling, .required "value" value.Spelling])
  | .optional wrapped => IsChoice "optional" wrapped.Spelling

/-- The documents that spell a literal. -/
def Literal.Spelling : Literal → Json → Prop
  | .generic text => IsChoice "generic" (IsNullable IsText text)
  | .string value multiline =>
    IsChoice "string" (IsRecord [.required "value" (IsText value),
      .defaulted "multiline" (multiline = false) (IsBool multiline)])
  | .int text => IsChoice "int" (IsText text)
  | .double text => IsChoice "double" (IsText text)

/-- The name under which a kind of `try` is spelled. -/
def TryKind.formName : TryKind → String
  | .plain => "plain"
  | .optional => "optional"
  | .forced => "forced"

mutual

/-- The documents that spell an expression. -/
def Expr.Spelling : Expr → Json → Prop
  | .assign target operator value =>
    IsChoice "assign" (IsRecord [.required "target" target.Spelling, .required "operator" (IsText operator),
      .required "value" value.Spelling])
  | .ternary condition thenValue elseValue =>
    IsChoice "ternary" (IsRecord [.required "condition" condition.Spelling,
      .required "then_value" thenValue.Spelling, .required "else_value" elseValue.Spelling])
  | .binary operator left right =>
    IsChoice "binary" (IsRecord [.required "operator" (IsText operator), .required "left" left.Spelling,
      .required "right" right.Spelling])
  | .logical operator left right =>
    IsChoice "logical" (IsRecord [.required "operator" (IsText operator), .required "left" left.Spelling,
      .required "right" right.Spelling])
  | .unary operator operand =>
    IsChoice "unary" (IsRecord [.required "operator" (IsText operator), .required "operand" operand.Spelling])
  | .call callee arguments construction =>
    IsChoice "call" (IsRecord [.required "callee" callee.Spelling,
      .defaulted "arguments" (arguments = []) (IsArray (argumentsSpelling arguments)),
      .defaulted "initializer" (construction = false) (IsBool construction)])
  | .member base name =>
    IsChoice "member" (IsRecord [.required "object" base.Spelling, .required "name" (IsText name)])
  | .index base position =>
    IsChoice "index" (IsRecord [.required "object" base.Spelling, .required "index" position.Spelling])
  | .optionalChain value forced =>
    IsChoice "optional_chain" (IsRecord [.required "value" value.Spelling,
      .defaulted "forced" (forced = false) (IsBool forced)])
  | .cast value target =>
    IsChoice "cast" (IsRecord [.required "value" value.Spelling, .required "target" target.Spelling])
  | .typeTest value target =>
    IsChoice "type_test" (IsRecord [.required "value" value.Spelling, .required "target" target.Spelling])
  | .attempt value kind =>
    IsChoice "try" (IsRecord [.required "value" value.Spelling,
      .defaulted "mode" (kind = .plain) (IsAlone kind.formName)])
  | .literal value => IsChoice "literal" value.Spelling
  | .itself => IsAlone "self"
  | .variable name => IsChoice "variable" (IsText name)
  | .grouping inner => IsChoice "grouping" inner.Spelling
  | .array items => IsChoice "array" (IsArray (itemsSpelling items))
  | .dictionary entries => IsChoice "dictionary" (IsArray (entriesSpelling entries))
  | .range lower upper inclusive =>
    IsChoice "range" (IsRecord [.required "lower" lower.Spelling, .required "upper" upper.Spelling,
      .required "inclusive" (IsBool inclusive)])

/-- The documents that spell some expressions, one for each. -/
def itemsSpelling : List Expr → List Json → Prop
  | [], [] => True
  | item :: rest, first :: others => item.Spelling first ∧ itemsSpelling rest others
  | _, _ => False

/-- The documents that spell an argument. -/
def Argument.Spelling : Argument → Json → Prop
  | ⟨label, value⟩ =>
    IsRecord [.optional "label" (label = none) (IsNullable IsText label), .required "value" value.Spelling]

/-- The documents that spell some arguments, one for each. -/
def argumentsSpelling : List Argument → List Json → Prop
  | [], [] => True
  | argument :: rest, first :: others => argument.Spelling first ∧ argumentsSpelling rest others
  | _, _ => False

/-- The documents that spell an entry of a dictionary. -/
def DictionaryEntry.Spelling : DictionaryEntry → Json → Prop
  | ⟨key, value⟩ => IsRecord [.required "key" key.Spelling, .required "value" value.Spelling]

/-- The documents that spell some entries of a dictionary, one for each. -/
def entriesSpelling : List DictionaryEntry → List Json → Prop
  | [], [] => True
  | entry :: rest, first :: others => entry.Spelling first ∧ entriesSpelling rest others
  | _, _ => False

end

/-! ### Declarations without statements inside -/

/-- The documents that spell a variable. -/
def VariableDecl.Spelling (decl : VariableDecl) : Json → Prop :=
  IsRecord [.required "name" (IsText decl.name),
    .optional "type_annotation" (decl.annotation = none) (IsNullable SourceType.Spelling decl.annotation),
    .optional "initializer" (decl.initializer = none) (IsNullable Expr.Spelling decl.initializer),
    .defaulted "constant" (decl.isConstant = false) (IsBool decl.isConstant),
    .defaulted "private" (decl.isPrivate = false) (IsBool decl.isPrivate),
    .defaulted "is_static" (decl.isStatic = false) (IsBool decl.isStatic)]

/-- The documents that spell a parameter. -/
def Parameter.Spelling (parameter : Parameter) : Json → Prop :=
  IsRecord [.required "name" (IsText parameter.name),
    .optional "label" (parameter.label = none) (IsNullable IsText parameter.label),
    .optional "default" (parameter.fallback = none) (IsNullable Expr.Spelling parameter.fallback),
    .defaulted "variadic" (parameter.isVariadic = false) (IsBool parameter.isVariadic),
    .optional "type_annotation" (parameter.annotation = none) (IsNullable SourceType.Spelling parameter.annotation)]

/-- The documents that spell an enumeration. -/
def EnumDecl.Spelling (decl : EnumDecl) : Json → Prop :=
  IsRecord [.required "name" (IsText decl.name), .defaulted "cases" (decl.cases = []) (IsList IsText decl.cases)]

/-- The documents that spell a further name for a type. -/
def AliasDecl.Spelling (decl : AliasDecl) : Json → Prop :=
  IsRecord [.required "name" (IsText decl.name), .required "target" decl.target.Spelling]

/-! ### Statements and declarations -/

mutual

/-- The documents that spell a declaration. -/
def Decl.Spelling : Decl → Json → Prop
  | .variable decl => IsChoice "variable" decl.Spelling
  | .type kind decl => IsChoice kind.word decl.Spelling
  | .function decl => IsChoice "function" decl.Spelling
  | .enumeration decl => IsChoice "enum" decl.Spelling
  | .typeAlias decl => IsChoice "type_alias" decl.Spelling

/-- The documents that spell a type with members. -/
def TypeDecl.Spelling : TypeDecl → Json → Prop
  | ⟨name, parents, members⟩ =>
    IsRecord [.required "name" (IsText name), .defaulted "inherits" (parents = []) (IsList IsText parents),
      .defaulted "members" (members = []) (IsArray (membersSpelling members))]

/-- The documents that spell a function. -/
def FunctionDecl.Spelling : FunctionDecl → Json → Prop
  | ⟨name, parameters, returnType, body, isStatic⟩ =>
    IsRecord [.required "name" (IsText name),
      .defaulted "params" (parameters = []) (IsList Parameter.Spelling parameters),
      .optional "return_type" (returnType = none) (IsNullable SourceType.Spelling returnType),
      .defaulted "body" (body = []) (IsArray (blockSpelling body)),
      .defaulted "is_static" (isStatic = false) (IsBool isStatic)]

/-- The documents that spell some declarations, one for each. -/
def membersSpelling : List Decl → List Json → Prop
  | [], [] => True
  | member :: rest, first :: others => member.Spelling first ∧ membersSpelling rest others
  | _, _ => False

/-- The documents that spell a statement. -/
def Stmt.Spelling : Stmt → Json → Prop
  | .decl declared => IsChoice "decl" declared.Spelling
  | .expr value => IsChoice "expr" value.Spelling
  | .block body => IsChoice "block" (IsArray (blockSpelling body))
  | .ifThen condition thenBranch elseBranch =>
    IsChoice "if" (IsRecord [.required "condition" condition.Spelling,
      .required "then_branch" (IsArray (blockSpelling thenBranch)),
      .optional "else_branch" (elseBranch = none) (elseSpelling elseBranch)])
  | .ifLet name value thenBranch elseBranch =>
    IsChoice "if_let" (IsRecord [.required "name" (IsText name), .required "value" value.Spelling,
      .required "then_branch" (IsArray (blockSpelling thenBranch)),
      .optional "else_branch" (elseBranch = none) (elseSpelling elseBranch)])
  | .guard condition body =>
    IsChoice "guard" (IsRecord [.required "condition" condition.Spelling,
      .required "body" (IsArray (blockSpelling body))])
  | .guardLet name value body =>
    IsChoice "guard_let" (IsRecord [.required "name" (IsText name), .required "value" value.Spelling,
      .required "body" (IsArray (blockSpelling body))])
  | .switch subject cases fallback =>
    IsChoice "switch" (IsRecord [.required "subject" subject.Spelling,
      .defaulted "cases" (cases = []) (IsArray (casesSpelling cases)),
      .optional "default" (fallback = none) (fallbackSpelling fallback)])
  | .forIn counter sequence body =>
    IsChoice "for_in" (IsRecord [.required "variable" (IsText counter), .required "sequence" sequence.Spelling,
      .required "body" (IsArray (blockSpelling body))])
  | .whileLoop condition body =>
    IsChoice "while" (IsRecord [.required "condition" condition.Spelling,
      .required "body" (IsArray (blockSpelling body))])
  | .repeatWhile body condition =>
    IsChoice "repeat" (IsRecord [.required "body" (IsArray (blockSpelling body)),
      .required "condition" condition.Spelling])
  | .returns value => IsChoice "return" (IsNullable Expr.Spelling value)
  | .breaks => IsAlone "break"
  | .continues => IsAlone "continue"
  | .blank => IsAlone "blank"
  | .doCatch body binding handler =>
    IsChoice "do_catch" (IsRecord [.required "body" (IsArray (blockSpelling body)),
      .optional "binding" (binding = none) (IsNullable IsText binding),
      .required "handler" (IsArray (blockSpelling handler))])
  | .throws value => IsChoice "throw" value.Spelling

/-- The documents that spell the statements of a block, one for each. -/
def blockSpelling : List Stmt → List Json → Prop
  | [], [] => True
  | statement :: rest, first :: others => statement.Spelling first ∧ blockSpelling rest others
  | _, _ => False

/-- The documents that spell the other branch of a conditional. -/
def elseSpelling : Option Stmt → Json → Prop
  | some statement, document => statement.Spelling document
  | none, document => document = .null

/-- The documents that spell what a switch does when no case fits. -/
def fallbackSpelling : Option (List Stmt) → Json → Prop
  | some body, document => IsArray (blockSpelling body) document
  | none, document => document = .null

/-- The documents that spell a case of a switch. -/
def SwitchCase.Spelling : SwitchCase → Json → Prop
  | ⟨patterns, body⟩ =>
    IsRecord [.required "patterns" (IsList Expr.Spelling patterns),
      .defaulted "body" (body = []) (IsArray (blockSpelling body))]

/-- The documents that spell some cases of a switch, one for each. -/
def casesSpelling : List SwitchCase → List Json → Prop
  | [], [] => True
  | branch :: rest, first :: others => branch.Spelling first ∧ casesSpelling rest others
  | _, _ => False

end

/-! ### Programs and options -/

/-- The documents that spell a place. -/
def Span.Spelling (span : Span) : Json → Prop :=
  IsRecord [.required "line" (IsWord32 span.line), .required "column" (IsWord32 span.column)]

/-- The documents that spell an item. -/
def Item.Spelling (item : Item) : Json → Prop :=
  IsRecord [.required "node" item.node.Spelling,
    .optional "span" (item.span = none) (IsNullable Span.Spelling item.span)]

/-- The documents that spell a program. -/
def Program.Spelling (program : Program) : Json → Prop :=
  IsRecord [.defaulted "items" (program.items = []) (IsList Item.Spelling program.items)]

/-- The documents that spell options. -/
def Options.Spelling (options : Options) : Json → Prop :=
  IsRecord [.defaulted "mode" (options.mode = .native) (IsAlone options.mode.name),
    .defaulted "error_policy" (options.policy = .failFast) (IsAlone options.policy.name)]

end ScriptLowering
