import ScriptLowering.Tree.SourceType

/-!
# Expressions

* `Literal`, `TryKind` — the leaves and modifiers of expressions;
* `Expr`, `Argument`, `DictionaryEntry` — expressions, the arguments of a call and the entries of a
  dictionary;
* `Expr.kind` — the word for an expression in messages.

Operators are kept as they are spelled: whether a spelling means anything is decided when the expression is
lowered.
-/

namespace ScriptLowering

/-- A literal.  Numbers are kept as their text. -/
inductive Literal where
  /-- A truth value, `nil` (no text), or any other word. -/
  | generic (text : Option String)
  | string (value : String) (multiline : Bool)
  | int (text : String)
  | double (text : String)
deriving DecidableEq

/-- What happens when the value under `try` fails: `try`, `try?` or `try!`. -/
inductive TryKind where
  | plain
  | optional
  | forced
deriving DecidableEq

mutual

/-- An expression. -/
inductive Expr where
  | assign (target : Expr) (operator : String) (value : Expr)
  | ternary (condition thenValue elseValue : Expr)
  | binary (operator : String) (left right : Expr)
  | logical (operator : String) (left right : Expr)
  | unary (operator : String) (operand : Expr)
  /-- A call; `construction` when it makes a value of a type. -/
  | call (callee : Expr) (arguments : List Argument) (construction : Bool)
  | member (object : Expr) (name : String)
  | index (object position : Expr)
  /-- `value?`, or `value!` when forced, under a further access. -/
  | optionalChain (value : Expr) (forced : Bool)
  | cast (value : Expr) (target : SourceType)
  | typeTest (value : Expr) (target : SourceType)
  | attempt (value : Expr) (kind : TryKind)
  | literal (value : Literal)
  | itself
  | variable (name : String)
  | grouping (inner : Expr)
  | array (items : List Expr)
  | dictionary (entries : List DictionaryEntry)
  | range (lower upper : Expr) (inclusive : Bool)

/-- An argument of a call, under its label if it has one. -/
structure Argument where
  label : Option String
  value : Expr

/-- An entry of a dictionary. -/
structure DictionaryEntry where
  key : Expr
  value : Expr

end

namespace Expr

/-- The word for an expression in messages. -/
def kind : Expr → String
  | .assign .. => "assignment"
  | .ternary .. => "ternary"
  | .binary .. => "binary"
  | .logical .. => "logical"
  | .unary .. => "unary"
  | .call .. => "call"
  | .member .. => "member access"
  | .index .. => "subscript"
  | .optionalChain .. => "optional chain"
  | .cast .. => "type cast"
  | .typeTest .. => "type test"
  | .attempt .. => "try"
  | .literal _ => "literal"
  | .itself => "self"
  | .variable _ => "variable"
  | .grouping _ => "grouping"
  | .array _ => "array literal"
  | .dictionary _ => "dictionary literal"
  | .range .. => "range"

/-- Whether an access to this expression goes through `?.`. -/
def isOptionalChain : Expr → Bool
  | .optionalChain _ forced => !forced
  | _ => false

/-- Whether this is the variable of the given name. -/
def isVariable (name : String) : Expr → Bool
  | .variable other => other = name
  | _ => false

/-- Whether this is the literal of a number. -/
def isNumber : Expr → Bool
  | .literal (.int _) => true
  | .literal (.double _) => true
  | _ => false

end Expr

end ScriptLowering
