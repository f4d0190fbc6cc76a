import ScriptLowering.Json.Reader
import ScriptLowering.Json.Record
import ScriptLowering.Tree.Program

/-!
# Reading trees from documents

* `SourceType.ofJson?`, `Expr.ofJson?`, `Stmt.ofJson?`, `Decl.ofJson?`, `Parameter.ofJson?`, `Item.ofJson?`,
  `Program.ofJson?` — the tree that a document spells, if it spells one;
* `Program.ofText?` — the program that a text spells.

A node is a choice among the forms of its type, and most forms are records.  Every step into a node goes at
least one level down in the document, so the depth of the document bounds the recursion.
-/

namespace ScriptLowering

open Json (text? bool? word32? list? isBare)

/-! ### Types -/

/-- The type that a document of depth less than `n` spells. -/
def SourceType.read? : Nat → Json → Option SourceType
  | 0, _ => none
  | n + 1, document => do
    let (form, some content) ← document.choice? | none
    match form with
    | "named" => return .named (← content.text?)
    | "array" => return .array (← SourceType.read? n content)
    | "dictionary" =>
      let [key, value] ← content.slots? ["key", "value"] | none
      return .dictionary (← key.required (SourceType.read? n)) (← value.required (SourceType.read? n))
    | "optional" => return .optional (← SourceType.read? n content)
    | _ => none

/-- The type that a document spells. -/
def SourceType.ofJson? (document : Json) : Option SourceType := SourceType.read? (document.depth + 1) document

/-! ### Expressions -/

/-- The literal that a document spells. -/
def Literal.ofJson? (document : Json) : Option Literal := do
  let (form, some content) ← document.choice? | none
  match form with
  | "generic" => return .generic (← content.nullable? text?)
  | "string" =>
    let [value, multiline] ← content.slots? ["value", "multiline"] | none
    return .string (← value.required text?) (← multiline.orElse false bool?)
  | "int" => return .int (← content.text?)
  | "double" => return .double (← content.text?)
  | _ => none

/-- The kind of `try` that a document spells. -/
def TryKind.ofJson? (document : Json) : Option TryKind := do
  let (form, content) ← document.choice?
  if isBare content then
    match form with
    | "plain" => return .plain
    | "optional" => return .optional
    | "forced" => return .forced
    | _ => none
  else none

/-- The argument that a document spells, given how to read its value. -/
def Argument.read? (value? : Json → Option Expr) (document : Json) : Option Argument := do
  let [label, value] ← document.slots? ["label", "value"] | none
  return ⟨← label.optional text?, ← value.required value?⟩

/-- The dictionary entry that a document spells, given how to read its parts. -/
def DictionaryEntry.read? (value? : Json → Option Expr) (document : Json) : Option DictionaryEntry := do
  let [key, value] ← document.slots? ["key", "value"] | none
  return ⟨← key.required value?, ← value.required value?⟩

/-- The expression that a document of depth less than `n` spells. -/
def Expr.read? : Nat → Json → Option Expr
  | 0, _ => none
  | n + 1, document => do
    let (form, content) ← document.choice?
    if form = "self" then
      if isBare content then return .itself else none
    else
      let some content := content | none
      match form with
      | "assign" =>
        let [target, operator, value] ← content.slots? ["target", "operator", "value"] | none
        return .assign (← target.required (Expr.read? n)) (← operator.required text?)
          (← value.required (Expr.read? n))
      | "ternary" =>
        let [condition, thenValue, elseValue] ←
          content.slots? ["condition", "then_value", "else_value"] | none
        return .ternary (← condition.required (Expr.read? n)) (← thenValue.required (Expr.read? n))
          (← elseValue.required (Expr.read? n))
      | "binary" =>
        let [operator, left, right] ← content.slots? ["operator", "left", "right"] | none
        return .binary (← operator.required text?) (← left.required (Expr.read? n))
          (← right.required (Expr.read? n))
      | "logical" =>
        let [operator, left, right] ← content.slots? ["operator", "left", "right"] | none
        return .logical (← operator.required text?) (← left.required (Expr.read? n))
          (← right.required (Expr.read? n))
      | "unary" =>
        let [operator, operand] ← content.slots? ["operator", "operand"] | none
        return .unary (← operator.required text?) (← operand.required (Expr.read? n))
      | "call" =>
        let [callee, arguments, initializer] ←
          content.slots? ["callee", "arguments", "initializer"] | none
        return .call (← callee.required (Expr.read? n))
          (← arguments.orElse [] (list? (Argument.read? (Expr.read? n)))) (← initializer.orElse false bool?)
      | "member" =>
        let [object, name] ← content.slots? ["object", "name"] | none
        return .member (← object.required (Expr.read? n)) (← name.required text?)
      | "index" =>
        let [object, position] ← content.slots? ["object", "index"] | none
        return .index (← object.required (Expr.read? n)) (← position.required (Expr.read? n))
      | "optional_chain" =>
        let [value, forced] ← content.slots? ["value", "forced"] | none
        return .optionalChain (← value.required (Expr.read? n)) (← forced.orElse false bool?)
      | "cast" =>
        let [value, target] ← content.slots? ["value", "target"] | none
        return .cast (← value.required (Expr.read? n)) (← target.required SourceType.ofJson?)
      | "type_test" =>
        let [value, target] ← content.slots? ["value", "target"] | none
        return .typeTest (← value.required (Expr.read? n)) (← target.required SourceType.ofJson?)
      | "try" =>
        let [value, mode] ← content.slots? ["value", "mode"] | none
        return .attempt (← value.required (Expr.read? n)) (← mode.orElse .plain TryKind.ofJson?)
      | "literal" => return .literal (← Literal.ofJson? content)
      | "variable" => return .variable (← content.text?)
      | "grouping" => return .grouping (← Expr.read? n content)
      | "array" => return .array (← content.list? (Expr.read? n))
      | "dictionary" => return .dictionary (← content.list? (DictionaryEntry.read? (Expr.read? n)))
      | "range" =>
        let [lower, upper, inclusive] ← content.slots? ["lower", "upper", "inclusive"] | none
        return .range (← lower.required (Expr.read? n)) (← upper.required (Expr.read? n))
          (← inclusive.required bool?)
      | _ => none

/-- The expression that a document spells. -/
def Expr.ofJson? (document : Json) : Option Expr := Expr.read? (document.depth + 1) document

/-! ### Declarations without statements inside -/

/-- The variable that a document spells. -/
def VariableDecl.ofJson? (document : Json) : Option VariableDecl := do
  let [name, annotation, initializer, constant, isPrivate, isStatic] ← document.slots?
    ["name", "type_annotation", "initializer", "constant", "private", "is_static"] | none
  return ⟨← name.required text?, ← annotation.optional SourceType.ofJson?,
    ← initializer.optional Expr.ofJson?, ← constant.orElse false bool?, ← isPrivate.orElse false bool?,
    ← isStatic.orElse false bool?⟩

/-- The parameter that a document spells. -/
def Parameter.ofJson? (document : Json) : Option Parameter := do
  let [name, label, fallback, variadic, annotation] ← document.slots?
    ["name", "label", "default", "variadic", "type_annotation"] | none
  return ⟨← name.required text?, ← label.optional text?, ← fallback.optional Expr.ofJson?,
    ← variadic.orElse false bool?, ← annotation.optional SourceType.ofJson?⟩

/-- The enumeration that a document spells. -/
def EnumDecl.ofJson? (document : Json) : Option EnumDecl := do
  let [name, cases] ← document.slots? ["name", "cases"] | none
  return ⟨← name.required text?, ← cases.orElse [] (list? text?)⟩

/-- The further name of a type that a document spells. -/
def AliasDecl.ofJson? (document : Json) : Option AliasDecl := do
  let [name, target] ← document.slots? ["name", "target"] | none
  return ⟨← name.required text?, ← target.required SourceType.ofJson?⟩

/-! ### Statements and declarations -/

/-- The type with members that a document spells, given how to read a member. -/
def TypeDecl.read? (member? : Json → Option Decl) (document : Json) : Option TypeDecl := do
  let [name, parents, members] ← document.slots? ["name", "inherits", "members"] | none
  return ⟨← name.required text?, ← parents.orElse [] (list? text?), ← members.orElse [] (list? member?)⟩

/-- The function that a document spells, given how to read a statement. -/
def FunctionDecl.read? (statement? : Json → Option Stmt) (document : Json) : Option FunctionDecl := do
  let [name, parameters, returnType, body, isStatic] ← document.slots?
    ["name", "params", "return_type", "body", "is_static"] | none
  return ⟨← name.required text?, ← parameters.orElse [] (list? Parameter.ofJson?),
    ← returnType.optional SourceType.ofJson?, ← body.orElse [] (list? statement?),
    ← isStatic.orElse false bool?⟩

/-- The case of a switch that a document spells, given how to read a statement. -/
def SwitchCase.read? (statement? : Json → Option Stmt) (document : Json) : Option SwitchCase := do
  let [patterns, body] ← document.slots? ["patterns", "body"] | none
  return ⟨← patterns.required (list? Expr.ofJson?), ← body.orElse [] (list? statement?)⟩

mutual

/-- The declaration that a document of depth less than `n` spells. -/
def Decl.read? : Nat → Json → Option Decl
  | 0, _ => none
  | n + 1, document => do
    let (form, some content) ← document.choice? | none
    match form with
    | "variable" => return .variable (← VariableDecl.ofJson? content)
    | "struct" => return .type .struct (← TypeDecl.read? (Decl.read? n) content)
    | "class" => return .type .reference (← TypeDecl.read? (Decl.read? n) content)
    | "function" => return .function (← FunctionDecl.read? (Stmt.read? n) content)
    | "enum" => return .enumeration (← EnumDecl.ofJson? content)
    | "protocol" => return .type .protocol (← TypeDecl.read? (Decl.read? n) content)
    | "type_alias" => return .typeAlias (← AliasDecl.ofJson? content)
    | _ => none

/-- The statement that a document of depth less than `n` spells. -/
def Stmt.read? : Nat → Json → Option Stmt
  | 0, _ => none
  | n + 1, document => do
    let (form, content) ← document.choice?
    match form with
    | "break" => if isBare content then return .breaks else none
    | "continue" => if isBare content then return .continues else none
    | "blank" => if isBare content then return .blank else none
    | form =>
      let some content := content | none
      match form with
      | "decl" => return .decl (← Decl.read? n content)
      | "expr" => return .expr (← Expr.ofJson? content)
      | "block" => return .block (← content.list? (Stmt.read? n))
      | "if" =>
        let [condition, thenBranch, elseBranch] ←
          content.slots? ["condition", "then_branch", "else_branch"] | none
        return .ifThen (← condition.required Expr.ofJson?) (← thenBranch.required (list? (Stmt.read? n)))
          (← elseBranch.optional (Stmt.read? n))
      | "if_let" =>
        let [name, value, thenBranch, elseBranch] ←
          content.slots? ["name", "value", "then_branch", "else_branch"] | none
        return .ifLet (← name.required text?) (← value.required Expr.ofJson?)
          (← thenBranch.required (list? (Stmt.read? n))) (← elseBranch.optional (Stmt.read? n))
      | "guard" =>
        let [condition, body] ← content.slots? ["condition", "body"] | none
        return .guard (← condition.required Expr.ofJson?) (← body.required (list? (Stmt.read? n)))
      | "guard_let" =>
        let [name, value, body] ← content.slots? ["name", "value", "body"] | none
        return .guardLet (← name.required text?) (← value.required Expr.ofJson?)
          (← body.required (list? (Stmt.read? n)))
      | "switch" =>
        let [subject, cases, fallback] ← content.slots? ["subject", "cases", "default"] | none
        return .switch (← subject.required Expr.ofJson?)
          (← cases.orElse [] (list? (SwitchCase.read? (Stmt.read? n))))
          (← fallback.optional (list? (Stmt.read? n)))
      | "for_in" =>
        let [counter, sequence, body] ← content.slots? ["variable", "sequence", "body"] | none
        return .forIn (← counter.required text?) (← sequence.required Expr.ofJson?)
          (← body.required (list? (Stmt.read? n)))
      | "while" =>
        let [condition, body] ← content.slots? ["condition", "body"] | none
        return .whileLoop (← condition.required Expr.ofJson?) (← body.required (list? (Stmt.read? n)))
      | "repeat" =>
        let [body, condition] ← content.slots? ["body", "condition"] | none
        return .repeatWhile (← body.required (list? (Stmt.read? n))) (← condition.required Expr.ofJson?)
      | "return" => return .returns (← content.nullable? Expr.ofJson?)
      | "do_catch" =>
        let [body, binding, handler] ← content.slots? ["body", "binding", "handler"] | none
        return .doCatch (← body.required (list? (Stmt.read? n))) (← binding.optional text?)
          (← handler.required (list? (Stmt.read? n)))
      | "throw" => return .throws (← Expr.ofJson? content)
      | _ => none

end

/-- The declaration that a document spells. -/
def Decl.ofJson? (document : Json) : Option Decl := Decl.read? (document.depth + 1) document

/-- The statement that a document spells. -/
def Stmt.ofJson? (document : Json) : Option Stmt := Stmt.read? (document.depth + 1) document

/-! ### Programs -/

/-- The place that a document spells. -/
def Span.ofJson? (document : Json) : Option Span := do
  let [line, column] ← document.slots? ["line", "column"] | none
  return ⟨← line.required word32?, ← column.required word32?⟩

/-- The item that a document spells. -/
def Item.ofJson? (document : Json) : Option Item := do
  let [node, span] ← document.slots? ["node", "span"] | none
  return ⟨← node.required Stmt.ofJson?, ← span.optional Span.ofJson?⟩

/-- The program that a document spells. -/
def Program.ofJson? (document : Json) : Option Program := do
  let [items] ← document.slots? ["items"] | none
  return ⟨← items.orElse [] (list? Item.ofJson?)⟩

/-- The program that a text spells. -/
def Program.ofText? (text : String) : Option Program := do
  let document ← Json.ofText? text
  Program.ofJson? document

end ScriptLowering
