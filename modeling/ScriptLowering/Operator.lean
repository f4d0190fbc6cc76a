/-!
# Operators

The four families of operators, with the source spellings that each family knows and the token that is
emitted for each operator.

* `OperatorFamily` — assignment, binary, logical, unary;
* `AssignmentOperator`, `BinaryOperator`, `LogicalOperator`, `UnaryOperator` — the operators of a family,
  each with `ofSource?` and `token`.

A spelling may mean different operators in different families, and two spellings may mean one operator.
-/

namespace ScriptLowering

/-- The role in which an operator stands. -/
inductive OperatorFamily where
  | assignment
  | binary
  | logical
  | unary
deriving DecidableEq

/-- The word for a family in messages. -/
def OperatorFamily.word : OperatorFamily → String
  | .assignment => "assignment"
  | .binary => "binary"
  | .logical => "logical"
  | .unary => "unary"

/-! ### Assignment -/

/-- Plain and compound assignment. -/
inductive AssignmentOperator where
  | assign
  | add
  | sub
  | mul
  | div
  | rem
  | bitAnd
  | bitOr
  | bitXor
  | shl
  | shr
deriving DecidableEq

namespace AssignmentOperator

/-- The operator that a source spelling means. -/
def ofSource? : String → Option AssignmentOperator
  | "=" => some .assign
  | "+=" => some .add
  | "-=" => some .sub
  | "*=" => some .mul
  | "/=" => some .div
  | "%=" => some .rem
  | "&=" => some .bitAnd
  | "|=" => some .bitOr
  | "^=" => some .bitXor
  | "<<=" => some .shl
  | ">>=" => some .shr
  | _ => none

/-- The emitted token. -/
def token : AssignmentOperator → String
  | .assign => "="
  | .add => "+="
  | .sub => "-="
  | .mul => "*="
  | .div => "/="
  | .rem => "%="
  | .bitAnd => "&="
  | .bitOr => "|="
  | .bitXor => "^="
  | .shl => "<<="
  | .shr => ">>="

end AssignmentOperator

/-! ### Binary -/

/-- Operators between two values. -/
inductive BinaryOperator where
  | add
  | sub
  | mul
  | div
  | rem
  | eq
  | ne
  | identical
  | notIdentical
  | lt
  | le
  | gt
  | ge
  | bitAnd
  | bitOr
  | bitXor
  | shl
  | shr
  | nilCoalesce
deriving DecidableEq

namespace BinaryOperator

/-- The operator that a source spelling means; the overflowing spellings mean the plain operators. -/
def ofSource? : String → Option BinaryOperator
  | "+" => some .add
  | "&+" => some .add
  | "-" => some .sub
  | "&-" => some .sub
  | "*" => some .mul
  | "&*" => some .mul
  | "/" => some .div
  | "%" => some .rem
  | "==" => some .eq
  | "!=" => some .ne
  | "===" => some .identical
  | "!==" => some .notIdentical
  | "<" => some .lt
  | "<=" => some .le
  | ">" => some .gt
  | ">=" => some .ge
  | "&" => some .bitAnd
  | "|" => some .bitOr
  | "^" => some .bitXor
  | "<<" => some .shl
  | ">>" => some .shr
  | "??" => some .nilCoalesce
  | _ => none

/-- The emitted token; equality is strict. -/
def token : BinaryOperator → String
  | .add => "+"
  | .sub => "-"
  | .mul => "*"
  | .div => "/"
  | .rem => "%"
  | .eq => "==="
  | .ne => "!=="
  | .identical => "==="
  | .notIdentical => "!=="
  | .lt => "<"
  | .le => "<="
  | .gt => ">"
  | .ge => ">="
  | .bitAnd => "&"
  | .bitOr => "|"
  | .bitXor => "^"
  | .shl => "<<"
  | .shr => ">>"
  | .nilCoalesce => "??"

end BinaryOperator

/-! ### Logical -/

/-- Operators between two truth values. -/
inductive LogicalOperator where
  | and
  | or
deriving DecidableEq

namespace LogicalOperator

/-- The operator that a source spelling means. -/
def ofSource? : String → Option LogicalOperator
  | "&&" => some .and
  | "||" => some .or
  | _ => none

/-- The emitted token. -/
def token : LogicalOperator → String
  | .and => "&&"
  | .or => "||"

/-- A logical operator is emitted as it is spelled. -/
theorem ofSource?_token (op : LogicalOperator) : ofSource? op.token = some op := by
  cases op <;> rfl

end LogicalOperator

/-! ### Unary -/

/-- Operators in front of one value. -/
inductive UnaryOperator where
  | not
  | neg
  | plus
  | bitNot
deriving DecidableEq

namespace UnaryOperator

/-- The operator that a source spelling means. -/
def ofSource? : String → Option UnaryOperator
  | "!" => some .not
  | "-" => some .neg
  | "+" => some .plus
  | "~" => some .bitNot
  | _ => none

/-- The emitted character. -/
def symbol : UnaryOperator → Char
  | .not => '!'
  | .neg => '-'
  | .plus => '+'
  | .bitNot => '~'

/-- The emitted token. -/
def token (op : UnaryOperator) : String := String.singleton op.symbol

/-- Whether two of this sign in a row would read as one token. -/
def isSign : UnaryOperator → Bool
  | .neg => true
  | .plus => true
  | _ => false

end UnaryOperator

end ScriptLowering
